/-!
# Identifiers in statements

An identifier is written between back-quotes, each dotted part by itself, and a
back-quote inside a part is written twice. Whatever characters a name holds, the
quotes close exactly where the name ends.
-/

namespace RecordMapper.Query

def backquote : Char := '\x60'

/-- The rest of a quoted identifier, up to and with the last closing quote. -/
def quoteRest : List Char → List Char
  | [] => [backquote]
  | c :: rest =>
      if c = '.' then backquote :: '.' :: backquote :: quoteRest rest
      else if c = backquote then backquote :: backquote :: quoteRest rest
      else c :: quoteRest rest

def quote (name : String) : String :=
  String.ofList (backquote :: quoteRest name.toList)

end RecordMapper.Query

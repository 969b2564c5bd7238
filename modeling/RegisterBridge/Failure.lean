namespace RegisterBridge

/-- What goes wrong anywhere in the bridge, as it is shown to an operator. -/
inductive Failure where
  | config (message : String)
  | device (message : String)
  | expression (message : String)
  | transport (message : String)
  | notFound (message : String)
  | serialization
  | parse (location message : String)
  | internal (message : String)
deriving DecidableEq

namespace Failure

/-- The text of a serialization failure depends on the text that could not be read, and is not
kept. -/
def message? : Failure → Option String
  | config m => some ("Configuration error: " ++ m)
  | device m => some ("Device error: " ++ m)
  | expression m => some ("Expression error: " ++ m)
  | transport m => some ("Transport error: " ++ m)
  | notFound m => some ("Not found: " ++ m)
  | serialization => none
  | parse location m => some ("Parse error at " ++ location ++ ": " ++ m)
  | internal m => some ("Internal error: " ++ m)

end Failure

end RegisterBridge

import HessianGo.Text.Quoted

/-!
This module contains the causes for which schema files are refused, and their wording.
-/

namespace HessianGo

namespace Schema

/--
Why an option assignment is refused. `literal` is always a string literal as it was written.
-/
inductive OptionFault where
  | unsupportedForm (extension : String)
  | unknownKey (block key : String)
  | expectsString (key : String)
  | expectsBool (key : String)
  | defaultNotConstant
  | defaultInProto3
  | malformedLiteral (literal : String)
  | danglingEscape (literal : String)
  | badHexEscape (literal : String)
  | badUnicodeEscape (literal : String)
  | unknownEscape (escape : Char) (literal : String)
  | notUtf8 (literal : String)
  deriving DecidableEq

inductive Error where
  | unreadable
  | ungrammatical
  | unsupportedDialect (value : String)
  | invalidOption (fault : OptionFault)
  | integerOutOfRange (literal : String)
  | unresolvedType (name scope : String)
  | duplicateType (name : String)
  | fileNotFound (name : String)
  deriving DecidableEq

def OptionFault.message : OptionFault → String
  | unsupportedForm extension => "unsupported option form for (" ++ extension ++ ")"
  | unknownKey block key => "unknown field `" ++ key ++ "` in " ++ block
  | expectsString key => "`" ++ key ++ "` expects a string"
  | expectsBool key => "`" ++ key ++ "` expects a bool"
  | defaultNotConstant => "default must be a constant"
  | defaultInProto3 => "explicit default values are not allowed in proto3"
  | malformedLiteral literal => "malformed string literal " ++ literal
  | danglingEscape literal => "dangling escape in " ++ literal
  | badHexEscape literal => "bad hex escape in " ++ literal
  | badUnicodeEscape literal => "bad unicode escape in " ++ literal
  | unknownEscape escape literal =>
    "unknown escape `\\" ++ String.singleton escape ++ "` in " ++ literal
  | notUtf8 literal => "string literal " ++ literal ++ " is not valid UTF-8"

def Error.message? : Error → Option String
  | unreadable => none
  | ungrammatical => none
  | unsupportedDialect value => some ("unsupported syntax " ++ Text.quoted value)
  | invalidOption fault => some ("invalid option: " ++ fault.message)
  | integerOutOfRange literal => some ("integer literal `" ++ literal ++ "` is out of range")
  | unresolvedType name scope =>
    some ("unresolved type `" ++ name ++ "` referenced from `" ++ scope ++ "`")
  | duplicateType name => some ("type `" ++ name ++ "` is defined more than once")
  | fileNotFound name => some ("file not found: " ++ name)

end Schema

end HessianGo

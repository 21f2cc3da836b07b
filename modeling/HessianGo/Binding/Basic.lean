import HessianGo.Config.Basic
import HessianGo.Schema.Basic
import HessianGo.Schema.Error

/-!
This module contains bindings: what Go code needs to know about the parts of a schema file to carry
them over the wire. Each part keeps the part of the schema it was made of.
-/

namespace HessianGo

namespace Binding

structure Field where
  schema : Schema.Field
  goName : String
  typeName : String
  /-- The Go expression for the value of the field when it is not set. -/
  defaultValue : String
  deriving Inhabited

structure Enum where
  schema : Schema.Enum
  goName : String
  javaClassName : String
  deriving Inhabited

structure Message where
  schema : Schema.Message
  goName : String
  javaClassName : String := ""
  innerMessages : List Message := []
  /-- The message around it inherits the message. -/
  isInheritance : Bool := false
  fields : List Field := []
  extendArgs : Bool := false
  deriving Inhabited

structure File where
  schema : Schema.File
  enums : List Enum
  messages : List Message
  deriving Inhabited

inductive Error where
  | missingClassName (message : String)
  | schema (error : Schema.Error)
  | config (error : Config.Error)
  | unknownFile (name : String)
  deriving DecidableEq

def Error.message? : Error → Option String
  | missingClassName message =>
    some ("message `" ++ message ++ "` must declare java_class_name or set extend_args")
  | schema error => error.message?.map ("parse error: " ++ ·)
  | config error => error.message?.map ("config error: " ++ ·)
  | unknownFile name => some ("file `" ++ name ++ "` is not in the descriptor pool")

end Binding

end HessianGo

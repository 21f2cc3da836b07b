import HessianGo.Binding.Basic
import HessianGo.Schema.Json

/-!
This module contains the JSON form of bindings.
-/

namespace HessianGo

namespace Binding

def Field.toJson (field : Field) : Json :=
  .object
    [("proto", field.schema.toJson),
     ("go_name", .string field.goName),
     ("type_name", .string field.typeName),
     ("default_value", .string field.defaultValue)]

def Enum.toJson (enum : Enum) : Json :=
  .object
    [("proto", enum.schema.toJson),
     ("go_name", .string enum.goName),
     ("java_class_name", .string enum.javaClassName)]

mutual

/--
A message shows only the full name of its schema; the parts follow as bindings.
-/
def Message.toJson : Message → Json
  | ⟨schema, goName, javaClassName, innerMessages, isInheritance, fields, extendArgs⟩ =>
    .object
      [("proto", .string schema.fullName),
       ("go_name", .string goName),
       ("java_class_name", .string javaClassName),
       ("inner_messages", .array (Message.listToJson innerMessages)),
       ("is_inheritance", .bool isInheritance),
       ("fields", .ofList Field.toJson fields),
       ("extend_args", .bool extendArgs)]

def Message.listToJson : List Message → List Json
  | [] => []
  | message :: messages => message.toJson :: Message.listToJson messages

end

def File.toJson (file : File) : Json :=
  .object
    [("source", .string file.schema.name),
     ("proto_package", .string (file.schema.package.getD "")),
     ("enums", .ofList Enum.toJson file.enums),
     ("messages", .ofList Message.toJson file.messages)]

end Binding

end HessianGo

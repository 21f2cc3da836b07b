import HessianGo.Json
import HessianGo.Schema.Basic

/-!
This module contains the JSON form of schema values. The members of an object stand in the order in
which a schema value lists its parts.
-/

namespace HessianGo

namespace Schema

def Dialect.word : Dialect → String
  | proto2 => "proto2"
  | proto3 => "proto3"
  | editions => "editions"

def Label.word : Label → String
  | optional => "optional"
  | required => "required"
  | repeated => "repeated"

def FieldType.toJson : FieldType → Json
  | scalar type => .object [("scalar", .string type.word)]
  | message fullName => .object [("message", .string fullName)]
  | enum fullName => .object [("enum", .string fullName)]
  | named written => .object [("custom", .string written)]

def DefaultValue.toJson : DefaultValue → Json
  | text value => .object [("text", .string value)]
  | bytes value => .object [("bytes", .ofList (fun b => .number b.toNat) value)]
  | constant written => .object [("constant", .string written)]

def FieldOptions.toJson (options : FieldOptions) : Json :=
  .object [("is_wrapper", .bool options.isWrapper)]

def MessageOptions.toJson (options : MessageOptions) : Json :=
  .object
    [("java_class_name", .string options.javaClassName),
     ("reference_path", .string options.referencePath),
     ("extend_args", .bool options.extendArgs),
     ("is_inheritance", .bool options.isInheritance)]

def EnumOptions.toJson (options : EnumOptions) : Json :=
  .object [("java_class_name", .string options.javaClassName)]

def Field.toJson (field : Field) : Json :=
  .object
    [("name", .string field.name),
     ("number", .number field.number.toNat),
     ("label", .string field.label.word),
     ("ty", field.type.toJson),
     ("default_value", .ofOption DefaultValue.toJson field.defaultValue),
     ("oneof", .ofOption .string field.oneof),
     ("options", .ofOption FieldOptions.toJson field.options)]

def EnumValue.toJson (value : EnumValue) : Json :=
  .object [("name", .string value.name), ("number", .number value.number.toInt)]

def Enum.toJson (enum : Enum) : Json :=
  .object
    [("name", .string enum.name),
     ("full_name", .string enum.fullName),
     ("values", .ofList EnumValue.toJson enum.values),
     ("options", .ofOption EnumOptions.toJson enum.options)]

mutual

def Message.toJson : Message → Json
  | ⟨name, fullName, fields, messages, enums, oneofs, isMapEntry, options⟩ =>
    .object
      [("name", .string name),
       ("full_name", .string fullName),
       ("fields", .ofList Field.toJson fields),
       ("messages", .array (Message.listToJson messages)),
       ("enums", .ofList Enum.toJson enums),
       ("oneofs", .ofList .string oneofs),
       ("map_entry", .bool isMapEntry),
       ("options", .ofOption MessageOptions.toJson options)]

def Message.listToJson : List Message → List Json
  | [] => []
  | message :: messages => message.toJson :: Message.listToJson messages

end

def File.toJson (file : File) : Json :=
  .object
    [("name", .string file.name),
     ("package", .ofOption .string file.package),
     ("syntax", .string file.dialect.word),
     ("imports", .ofList .string file.imports),
     ("go_package", .ofOption .string file.goPackage),
     ("enums", .ofList Enum.toJson file.enums),
     ("messages", .ofList Message.toJson file.messages)]

end Schema

end HessianGo

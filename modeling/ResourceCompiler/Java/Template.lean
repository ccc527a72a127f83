import ResourceCompiler.Template

/-!
# Templates of generated code

The compilation unit of a class and the declaration of an enum inside it. Each line of code is a text
that ends in a newline.
-/

namespace ResourceCompiler.Java

open ResourceCompiler.Template

namespace ClassTemplate

def var (name : String) : Part := .value (.variable name)

/-- A member of the field at hand. -/
def field (name : String) : Expr := .member (.variable "field") name

def fieldValue (name : String) : Part := .value (field name)

/-- Parts that stand only where an expression counts as true. -/
def ifSet (test : Expr) (yes : List Part) : Part := .when test yes []

def jackson : String := "com.fasterxml.jackson.annotation."

def getter : List Part :=
  [.text "    public ", fieldValue "type", .text " ", fieldValue "getter", .text "() \x7b\n        return ",
   fieldValue "identifier", .text ";\n    \x7d\n\n"]

def setter : List Part :=
  [.text "    public void ", fieldValue "setter", .text "(", fieldValue "type", .text " ",
   fieldValue "identifier", .text ") \x7b\n        this.", fieldValue "identifier", .text " = ",
   fieldValue "identifier", .text ";\n    \x7d\n\n"]

/-- The map of all undeclared keys. -/
def catchAllField : List Part :=
  [.text ("    @" ++ jackson ++ "JsonIgnore\n    private "), fieldValue "type", .text " ",
   fieldValue "identifier", .text " = new java.util.LinkedHashMap<>();\n\n",
   .text ("    @" ++ jackson ++ "JsonAnyGetter\n")] ++ getter ++
  [.text ("    @" ++ jackson ++ "JsonAnySetter\n"),
   .text "    public void setAdditionalProperty(java.lang.String key, ", fieldValue "value_type",
   .text " value) \x7b\n        this.", fieldValue "identifier", .text ".put(key, value);\n    \x7d\n\n"] ++
  setter

def declaredField : List Part :=
  [ifSet (field "description")
     [.value (.filtered (field "description") (.docComment 4)), .text "\n"],
   .each "annotation" (field "annotations") [.text "    ", var "annotation", .text "\n"],
   .text "    private ", fieldValue "type", .text " ", fieldValue "identifier",
   ifSet (field "initializer") [.text " = ", fieldValue "initializer"], .text ";\n\n"] ++
  getter ++ setter

/-- Everything before the declaration of the class. -/
def header : List Part :=
  [.text "package ", var "package", .text ";\n\n",
   ifSet (.variable "description")
     [.value (.filtered (.variable "description") (.docComment 0)), .text "\n"],
   .each "annotation" (.variable "class_annotations") [var "annotation", .text "\n"],
   .text ("@" ++ jackson ++ "JsonInclude(" ++ jackson ++ "JsonInclude.Include.NON_NULL)\n"),
   ifSet (.variable "property_order")
     [.text ("@" ++ jackson ++ "JsonPropertyOrder(\x7b "),
      .value (.filtered (.filtered (.variable "property_order") .quoteEach) (.join ", ")),
      .text " \x7d)\n"],
   .text "@com.fasterxml.jackson.databind.annotation.JsonDeserialize(",
   .text "using = com.fasterxml.jackson.databind.JsonDeserializer.None.class)\n",
   ifSet (.variable "generated")
     [.text "@javax.annotation.processing.Generated(",
      .value (.filtered (.variable "generator_name") .quote), .text ")\n"]]

def declaration : List Part :=
  [.text "public class ", var "class_name",
   ifSet (.variable "extends") [.text " extends ", var "extends"],
   ifSet (.variable "implements")
     [.text " implements ", .value (.filtered (.variable "implements") (.join ", "))],
   .text " \x7b\n\n"]

def body : List Part :=
  [.each "field" (.variable "fields") [.when (field "additional_properties") catchAllField declaredField],
   .each "enum" (.variable "inner_enums")
     [.value (.filtered (.variable "enum") (.indentLines 4)), .text "\n\n"],
   .text "\x7d\n"]

def template : Template := header ++ declaration ++ body

end ClassTemplate

namespace EnumTemplate

open ClassTemplate (var ifSet jackson)

/-- A member of the constant at hand. -/
def entry (name : String) : Expr := .member (.variable "entry") name

def constants : List Part :=
  [.each "entry" (.variable "entries")
    [.text ("    @" ++ jackson ++ "JsonProperty("), .value (.filtered (entry "json_name") .quote),
     .text ")\n    ", .value (entry "identifier"), .text "(", .value (entry "literal"), .text ")",
     .value (.choose (.member (.variable "loop") "last") (.text ";") (.text ",")), .text "\n"]]

def template : Template :=
  [ifSet (.variable "description")
     [.value (.filtered (.variable "description") (.docComment 0)), .text "\n"],
   .text "public enum ", var "enum_name", .text " \x7b\n\n"] ++ constants ++
  [.text "\n    private final ", var "backing", .text " value;\n\n    ", var "enum_name", .text "(",
   var "backing", .text " value) \x7b\n        this.value = value;\n    \x7d\n\n",
   .text ("    @" ++ jackson ++ "JsonValue\n    public "), var "backing",
   .text " getValue() \x7b\n        return value;\n    \x7d\n\x7d\n"]

end EnumTemplate

def templates : List (String × Template) :=
  [("class.java.j2", ClassTemplate.template), ("enum.java.j2", EnumTemplate.template)]

end ResourceCompiler.Java

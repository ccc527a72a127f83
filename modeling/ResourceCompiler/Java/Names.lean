import ResourceCompiler.Naming

/-!
# Reserved words

Generated code spells types in full, so that only keywords and literals need an escape.
-/

namespace ResourceCompiler.Java

def reservedWords : List String :=
  ["abstract", "assert", "boolean", "break", "byte", "case", "catch", "char", "class", "const",
   "continue", "default", "do", "double", "else", "enum", "extends", "final", "finally", "float",
   "for", "goto", "if", "implements", "import", "instanceof", "int", "interface", "long", "native",
   "new", "package", "private", "protected", "public", "return", "short", "static", "strictfp",
   "super", "switch", "synchronized", "this", "throw", "throws", "transient", "try", "void",
   "volatile", "while", "record", "var", "yield", "true", "false", "null", "_"]

def sanitizer : Sanitizer := ⟨reservedWords, []⟩

end ResourceCompiler.Java

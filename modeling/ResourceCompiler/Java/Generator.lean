import ResourceCompiler.Generation
import ResourceCompiler.Java.Names
import ResourceCompiler.Java.Types
import ResourceCompiler.Java.Unit

/-!
# The generator of Java classes
-/

namespace ResourceCompiler.Java

def generator (config : Config) : Generator where
  className := "JavaGenerator"
  language := "java"
  extension := ".java"
  config := config
  templates := store
  resolver := ⟨config, sanitizer, ({} : TypeNames).dialect⟩
  render := renderUnit config
  warnings := fun c => warnings c

end ResourceCompiler.Java

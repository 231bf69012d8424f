/-!
# Keywords of Java

Reserved words, the words of module declarations, and words that are keywords only in particular
places.  `Keyword.word` is the spelling and `Keyword.ofWord?` its inverse.
-/

namespace JavaLint

/-- The reserved and the contextual keywords. -/
inductive Keyword where
  | abstractKw | assertKw | booleanKw | breakKw | byteKw | caseKw | catchKw | charKw | classKw
  | constKw | continueKw | defaultKw | doKw | doubleKw | elseKw | enumKw | extendsKw | finalKw
  | finallyKw | floatKw | forKw | gotoKw | ifKw | implementsKw | importKw | instanceofKw | intKw
  | interfaceKw | longKw | nativeKw | newKw | packageKw | privateKw | protectedKw | publicKw
  | returnKw | shortKw | staticKw | strictfpKw | superKw | switchKw | synchronizedKw | thisKw
  | throwKw | throwsKw | transientKw | tryKw | voidKw | volatileKw | whileKw
  | moduleKw | openKw | requiresKw | exportsKw | opensKw | toKw | usesKw | providesKw | withKw
  | transitiveKw
  | varKw | yieldKw | recordKw | sealedKw | permitsKw | nonSealedKw
deriving DecidableEq, Repr

namespace Keyword

/-- The spelling of a keyword. -/
def word : Keyword → String
  | .abstractKw => "abstract"
  | .assertKw => "assert"
  | .booleanKw => "boolean"
  | .breakKw => "break"
  | .byteKw => "byte"
  | .caseKw => "case"
  | .catchKw => "catch"
  | .charKw => "char"
  | .classKw => "class"
  | .constKw => "const"
  | .continueKw => "continue"
  | .defaultKw => "default"
  | .doKw => "do"
  | .doubleKw => "double"
  | .elseKw => "else"
  | .enumKw => "enum"
  | .extendsKw => "extends"
  | .finalKw => "final"
  | .finallyKw => "finally"
  | .floatKw => "float"
  | .forKw => "for"
  | .gotoKw => "goto"
  | .ifKw => "if"
  | .implementsKw => "implements"
  | .importKw => "import"
  | .instanceofKw => "instanceof"
  | .intKw => "int"
  | .interfaceKw => "interface"
  | .longKw => "long"
  | .nativeKw => "native"
  | .newKw => "new"
  | .packageKw => "package"
  | .privateKw => "private"
  | .protectedKw => "protected"
  | .publicKw => "public"
  | .returnKw => "return"
  | .shortKw => "short"
  | .staticKw => "static"
  | .strictfpKw => "strictfp"
  | .superKw => "super"
  | .switchKw => "switch"
  | .synchronizedKw => "synchronized"
  | .thisKw => "this"
  | .throwKw => "throw"
  | .throwsKw => "throws"
  | .transientKw => "transient"
  | .tryKw => "try"
  | .voidKw => "void"
  | .volatileKw => "volatile"
  | .whileKw => "while"
  | .moduleKw => "module"
  | .openKw => "open"
  | .requiresKw => "requires"
  | .exportsKw => "exports"
  | .opensKw => "opens"
  | .toKw => "to"
  | .usesKw => "uses"
  | .providesKw => "provides"
  | .withKw => "with"
  | .transitiveKw => "transitive"
  | .varKw => "var"
  | .yieldKw => "yield"
  | .recordKw => "record"
  | .sealedKw => "sealed"
  | .permitsKw => "permits"
  | .nonSealedKw => "non-sealed"

/-- Every keyword. -/
def all : List Keyword :=
  [.abstractKw, .assertKw, .booleanKw, .breakKw, .byteKw, .caseKw, .catchKw, .charKw, .classKw,
   .constKw, .continueKw, .defaultKw, .doKw, .doubleKw, .elseKw, .enumKw, .extendsKw, .finalKw,
   .finallyKw, .floatKw, .forKw, .gotoKw, .ifKw, .implementsKw, .importKw, .instanceofKw,
   .intKw, .interfaceKw, .longKw, .nativeKw, .newKw, .packageKw, .privateKw, .protectedKw,
   .publicKw, .returnKw, .shortKw, .staticKw, .strictfpKw, .superKw, .switchKw,
   .synchronizedKw, .thisKw, .throwKw, .throwsKw, .transientKw, .tryKw, .voidKw, .volatileKw,
   .whileKw, .moduleKw, .openKw, .requiresKw, .exportsKw, .opensKw, .toKw, .usesKw,
   .providesKw, .withKw, .transitiveKw, .varKw, .yieldKw, .recordKw, .sealedKw, .permitsKw,
   .nonSealedKw]

/-- The keyword with the given spelling. -/
def ofWord? (w : String) : Option Keyword :=
  all.find? fun k => k.word = w

/-- A word that is a keyword only in particular places and elsewhere an ordinary name. -/
def isContextual : Keyword → Bool
  | moduleKw | openKw | requiresKw | exportsKw | opensKw | toKw | usesKw | providesKw | withKw
  | transitiveKw | varKw | yieldKw | recordKw | sealedKw | permitsKw => true
  | _ => false

/-- The name of a primitive type. -/
def isPrimitive : Keyword → Bool
  | booleanKw | byteKw | charKw | shortKw | intKw | longKw | floatKw | doubleKw => true
  | _ => false

/-- A word that may stand in the modifier list of a declaration. -/
def isModifier : Keyword → Bool
  | publicKw | protectedKw | privateKw | abstractKw | staticKw | finalKw | strictfpKw | nativeKw
  | synchronizedKw | transientKw | volatileKw | defaultKw | sealedKw | nonSealedKw => true
  | _ => false

end Keyword

end JavaLint

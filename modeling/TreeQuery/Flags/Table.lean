import TreeQuery.Flags.Basic

/-!
# The flags of types, symbols and modifiers

The three tables, each in the order of its declaration, and names for the few
sets that the rest of the library asks about.

`STRING_LIKE` is the one name that stands for several bits of its table, and it
comes last; `NONE` stands for no bit at all.

## Main definitions

* `typeFlagTable`, `TypeFlags`: What a type can be.
* `symbolFlagTable`, `SymbolFlags`: What a symbol can stand for.
* `modifierFlagTable`, `ModifierFlags`: The modifiers written on a declaration.
-/

namespace TreeQuery

def typeFlagTable : FlagTable :=
  ⟨"TypeFlags",
    [("ANY", 0x1), ("UNKNOWN", 0x2), ("STRING", 0x4), ("NUMBER", 0x8), ("BOOLEAN", 0x10),
     ("ENUM", 0x20), ("BIGINT", 0x40), ("STRING_LITERAL", 0x80), ("NUMBER_LITERAL", 0x100),
     ("BOOLEAN_LITERAL", 0x200), ("ENUM_LITERAL", 0x400), ("BIGINT_LITERAL", 0x800),
     ("ESSYMBOL", 0x1000), ("UNIQUE_ESSYMBOL", 0x2000), ("VOID", 0x4000), ("UNDEFINED", 0x8000),
     ("NULL", 0x10000), ("NEVER", 0x20000), ("TYPE_PARAMETER", 0x40000), ("OBJECT", 0x80000),
     ("UNION", 0x100000), ("INTERSECTION", 0x200000), ("INDEX", 0x400000),
     ("INDEXED_ACCESS", 0x800000), ("CONDITIONAL", 0x1000000), ("SUBSTITUTION", 0x2000000),
     ("NON_PRIMITIVE", 0x4000000), ("TEMPLATE_LITERAL", 0x8000000), ("STRING_MAPPING", 0x10000000),
     ("STRING_LIKE", 0x18000084)]⟩

def symbolFlagTable : FlagTable :=
  ⟨"SymbolFlags",
    [("NONE", 0), ("FUNCTION_SCOPED_VARIABLE", 0x1), ("BLOCK_SCOPED_VARIABLE", 0x2),
     ("PROPERTY", 0x4), ("ENUM_MEMBER", 0x8), ("FUNCTION", 0x10), ("CLASS", 0x20),
     ("INTERFACE", 0x40), ("CONST_ENUM", 0x80), ("REGULAR_ENUM", 0x100), ("VALUE_MODULE", 0x200),
     ("NAMESPACE_MODULE", 0x400), ("TYPE_LITERAL", 0x800), ("OBJECT_LITERAL", 0x1000),
     ("METHOD", 0x2000), ("CONSTRUCTOR", 0x4000), ("GET_ACCESSOR", 0x8000),
     ("SET_ACCESSOR", 0x10000), ("SIGNATURE", 0x20000), ("TYPE_PARAMETER", 0x40000),
     ("TYPE_ALIAS", 0x80000), ("EXPORT_VALUE", 0x100000), ("ALIAS", 0x200000),
     ("PROTOTYPE", 0x400000), ("EXPORT_STAR", 0x800000), ("OPTIONAL", 0x1000000),
     ("TRANSIENT", 0x2000000), ("ASSIGNMENT", 0x4000000), ("MODULE_EXPORTS", 0x8000000)]⟩

def modifierFlagTable : FlagTable :=
  ⟨"ModifierFlags",
    [("NONE", 0), ("EXPORT", 0x1), ("AMBIENT", 0x2), ("PUBLIC", 0x4), ("PRIVATE", 0x8),
     ("PROTECTED", 0x10), ("STATIC", 0x20), ("READONLY", 0x40), ("ABSTRACT", 0x80),
     ("ASYNC", 0x100), ("DEFAULT", 0x200), ("CONST", 0x800)]⟩

abbrev TypeFlags := Flags typeFlagTable

abbrev SymbolFlags := Flags symbolFlagTable

abbrev ModifierFlags := Flags modifierFlagTable

namespace TypeFlags

def string : TypeFlags := ⟨0x4⟩

def stringLiteral : TypeFlags := ⟨0x80⟩

/-- Everything whose values are strings: the type, its literals, templates and mappings. -/
def stringLike : TypeFlags := ⟨0x18000084⟩

def object : TypeFlags := ⟨0x80000⟩

end TypeFlags

namespace SymbolFlags

def getAccessor : SymbolFlags := ⟨0x8000⟩

def setAccessor : SymbolFlags := ⟨0x10000⟩

end SymbolFlags

namespace ModifierFlags

/-- The modifier of a declaration that other files may import. -/
def exported : ModifierFlags := ⟨0x1⟩

end ModifierFlags

-- Bits without a name are shown as a number, and a name that covers only bits already named is not.
example : (⟨0x20000001⟩ : TypeFlags).render = "TypeFlags(ANY | 0x20000000)" := by decide +kernel

example : TypeFlags.stringLike.render =
    "TypeFlags(STRING | STRING_LITERAL | TEMPLATE_LITERAL | STRING_MAPPING)" := by decide +kernel

end TreeQuery

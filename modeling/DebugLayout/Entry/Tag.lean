/-!
# DebugLayout — tags and attributes

Every debug entry has a **tag**, which says what it describes, and **attributes** by name. Tags
that mean nothing to this library are kept as they are, because they appear in messages.

* `Tag`: the tags, and the families of tags that are treated alike;
* `Attr`: the names of the attributes that are read.
-/

namespace DebugLayout

/-- What a debug entry describes, by its name in the debug information. -/
structure Tag where
  name : String
  deriving DecidableEq, Repr

namespace Tag

def structureType : Tag := ⟨"DW_TAG_structure_type"⟩
def classType : Tag := ⟨"DW_TAG_class_type"⟩
def unionType : Tag := ⟨"DW_TAG_union_type"⟩
def enumerationType : Tag := ⟨"DW_TAG_enumeration_type"⟩
def enumerator : Tag := ⟨"DW_TAG_enumerator"⟩
def baseType : Tag := ⟨"DW_TAG_base_type"⟩
def arrayType : Tag := ⟨"DW_TAG_array_type"⟩
def subrangeType : Tag := ⟨"DW_TAG_subrange_type"⟩
def pointerType : Tag := ⟨"DW_TAG_pointer_type"⟩
def referenceType : Tag := ⟨"DW_TAG_reference_type"⟩
def rvalueReferenceType : Tag := ⟨"DW_TAG_rvalue_reference_type"⟩
def member : Tag := ⟨"DW_TAG_member"⟩
def inheritance : Tag := ⟨"DW_TAG_inheritance"⟩
def typedef : Tag := ⟨"DW_TAG_typedef"⟩
def constType : Tag := ⟨"DW_TAG_const_type"⟩
def volatileType : Tag := ⟨"DW_TAG_volatile_type"⟩
def restrictType : Tag := ⟨"DW_TAG_restrict_type"⟩
def packedType : Tag := ⟨"DW_TAG_packed_type"⟩
def atomicType : Tag := ⟨"DW_TAG_atomic_type"⟩
def immutableType : Tag := ⟨"DW_TAG_immutable_type"⟩
def subroutineType : Tag := ⟨"DW_TAG_subroutine_type"⟩
def formalParameter : Tag := ⟨"DW_TAG_formal_parameter"⟩
def unspecifiedParameters : Tag := ⟨"DW_TAG_unspecified_parameters"⟩
def unspecifiedType : Tag := ⟨"DW_TAG_unspecified_type"⟩
def variable_ : Tag := ⟨"DW_TAG_variable"⟩
def subprogram : Tag := ⟨"DW_TAG_subprogram"⟩
def lexicalBlock : Tag := ⟨"DW_TAG_lexical_block"⟩
def namespace_ : Tag := ⟨"DW_TAG_namespace"⟩
def compileUnit : Tag := ⟨"DW_TAG_compile_unit"⟩
def partialUnit : Tag := ⟨"DW_TAG_partial_unit"⟩

/-- The tags of entries that only give another type a name or a qualifier. -/
def isAlias (t : Tag) : Bool :=
  [typedef, constType, volatileType, restrictType, packedType, atomicType, immutableType].contains t

/-- The tags of pointers and references. -/
def isPointer (t : Tag) : Bool := [pointerType, referenceType, rvalueReferenceType].contains t

/-- The tags of types made of members. -/
def isComposite (t : Tag) : Bool := [structureType, classType, unionType].contains t

/-- The tags of the entries that describe a type. -/
def isType (t : Tag) : Bool :=
  t.isAlias || t.isPointer || t.isComposite ||
    [baseType, enumerationType, arrayType, subroutineType, unspecifiedType].contains t

/-- The tags of the scopes of a function. -/
def isFunctionScope (t : Tag) : Bool := [subprogram, lexicalBlock].contains t

/-- The tags of the scopes whose name qualifies what is declared in them. -/
def isNamedScope (t : Tag) : Bool := [namespace_, structureType, classType, unionType].contains t

/-- The tags of compile units. -/
def isUnit (t : Tag) : Bool := [compileUnit, partialUnit].contains t

/-- The family of a composite tag: a class is a struct. -/
def family (t : Tag) : Tag := if t = classType then structureType else t

end Tag

namespace Attr

def declaration : String := "DW_AT_declaration"
def specification : String := "DW_AT_specification"
def abstractOrigin : String := "DW_AT_abstract_origin"
def name : String := "DW_AT_name"
def linkageName : String := "DW_AT_linkage_name"
def mipsLinkageName : String := "DW_AT_MIPS_linkage_name"
def byteSize : String := "DW_AT_byte_size"
def encoding : String := "DW_AT_encoding"
def constValue : String := "DW_AT_const_value"
def type : String := "DW_AT_type"
def memberLocation : String := "DW_AT_data_member_location"
def bitOffset : String := "DW_AT_bit_offset"
def bitSize : String := "DW_AT_bit_size"
def dataBitOffset : String := "DW_AT_data_bit_offset"
def location : String := "DW_AT_location"
def upperBound : String := "DW_AT_upper_bound"
def lowerBound : String := "DW_AT_lower_bound"
def count : String := "DW_AT_count"
def byteStride : String := "DW_AT_byte_stride"

end Attr

end DebugLayout

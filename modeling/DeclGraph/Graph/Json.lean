import DeclGraph.Graph.Basic
import DeclGraph.Text.Json.Basic

/-! The JSON form of graphs. Flags are shown as words, or as objects with all their attributes. -/
namespace DeclGraph

/-- How flags are shown. -/
inductive FlagDetail where
  | word
  | attributes
  deriving DecidableEq, Repr

def Attribute.valueJson : (a : Attribute) → a.Value → Json
  | .mark _, b => .bool b
  | .visibility, v => .text v.label
  | .modality, m => .text m.label
  | .classKind, k => .text k.label
  | .memberOrigin, o => .text o.label

/-- Every attribute that the kind records, and the unknown bits. -/
def Flags.attributesJson {k : FlagKind} (f : Flags k) : Json :=
  .record (k.layout.map (fun (a, _) => (a.label, a.valueJson (f.get a))) ++
    [("unknown", .nat f.unknown.toNat)])

def Flags.toJson {k : FlagKind} (d : FlagDetail) (f : Flags k) : Json :=
  match d with
  | .word => .nat f.toWord.toNat
  | .attributes => f.attributesJson

/-- A value, or null for its absence. -/
def Json.orNull {α : Type} (f : α → Json) (x? : Option α) : Json := (x?.map f).getD .null

def Json.list {α : Type} (f : α → Json) (xs : List α) : Json := .array (xs.map f)

def Link.toJson (l : Link) : Json := .array [.nat l.classId, .nat l.memberId]

def Signature.toJson (s : Signature) : Json := .array [.text s.name, .text s.descriptor]

def Classifier.field : Classifier → String × Json
  | classNamed name => ("class", .text name)
  | parameter index => ("type_parameter", .nat index.toNat)
  | aliasNamed name => ("type_alias", .text name)

section
variable (d : FlagDetail)

mutual

def TypeRef.toJson : TypeRef → Json
  | .mk flags classifier arguments =>
    .record [("flags", flags.toJson d), classifier.field,
      ("arguments", .array (TypeRef.argumentsJson arguments))]

def TypeRef.argumentsJson : List TypeArgument → List Json
  | [] => []
  | a :: as => TypeRef.argumentJson a :: TypeRef.argumentsJson as

def TypeRef.argumentJson : TypeArgument → Json
  | .star => .text "*"
  | .projection v t => .array [.text v.label, t.toJson]

end

def TypeParameter.toJson (t : TypeParameter) : Json :=
  .record [("flags", t.flags.toJson d), ("name", .text t.name), ("index", .nat t.index.toNat),
    ("variance", .text t.variance.label), ("upper_bounds", .list (TypeRef.toJson d) t.upperBounds)]

def ValueParameter.toJson (p : ValueParameter) : Json :=
  .record [("flags", p.flags.toJson d), ("name", .text p.name), ("type", p.type.toJson d),
    ("vararg_element_type", .orNull (TypeRef.toJson d) p.varargElementType)]

def FunctionDecl.toJson (f : FunctionDecl) : Json :=
  .record [("flags", f.flags.toJson d), ("name", .text f.name),
    ("type_parameters", .list (TypeParameter.toJson d) f.typeParameters),
    ("receiver_type", .orNull (TypeRef.toJson d) f.receiverType),
    ("value_parameters", .list (ValueParameter.toJson d) f.valueParameters),
    ("return_type", f.returnType.toJson d), ("jvm_signature", f.signature.toJson),
    ("referenced_method", .orNull Link.toJson f.link)]

def ConstructorDecl.toJson (c : ConstructorDecl) : Json :=
  .record [("flags", c.flags.toJson d),
    ("value_parameters", .list (ValueParameter.toJson d) c.valueParameters),
    ("jvm_signature", c.signature.toJson), ("referenced_method", .orNull Link.toJson c.link)]

def Accessor.toJson (a : Accessor) : Json :=
  .record [("flags", a.flags.toJson d), ("signature", .orNull Signature.toJson a.signature),
    ("referenced_method", .orNull Link.toJson a.link)]

def PropertyDecl.toJson (p : PropertyDecl) : Json :=
  .record [("flags", p.flags.toJson d), ("name", .text p.name),
    ("type_parameters", .list (TypeParameter.toJson d) p.typeParameters),
    ("receiver_type", .orNull (TypeRef.toJson d) p.receiverType),
    ("return_type", p.returnType.toJson d), ("backing_field", .orNull Signature.toJson p.field),
    ("referenced_field", .orNull Link.toJson p.fieldLink),
    ("getter", .orNull (Accessor.toJson d) p.getter),
    ("setter", .orNull (Accessor.toJson d) p.setter)]

def AliasDecl.toJson (a : AliasDecl) : Json :=
  .record [("flags", a.flags.toJson d), ("name", .text a.name),
    ("type_parameters", .list (TypeParameter.toJson d) a.typeParameters),
    ("underlying_type", a.underlyingType.toJson d)]

def Declarations.fields (ds : Declarations) : List (String × Json) :=
  [("functions", .list (FunctionDecl.toJson d) ds.functions),
    ("properties", .list (PropertyDecl.toJson d) ds.properties),
    ("type_aliases", .list (AliasDecl.toJson d) ds.aliases)]

def ClassBody.fields (b : ClassBody) : List (String × Json) :=
  b.declarations.fields d ++
    [("flags", b.flags.toJson d), ("class_name", .text b.className),
      ("companion_object_name", .orNull .text b.companionName),
      ("type_parameters", .list (TypeParameter.toJson d) b.typeParameters),
      ("supertypes", .list (TypeRef.toJson d) b.supertypes),
      ("constructors", .list (ConstructorDecl.toJson d) b.constructors),
      ("nested_class_names", .list .text b.nestedClasses),
      ("enum_entry_names", .list .text b.enumEntries),
      ("sealed_subclass_names", .list .text b.sealedSubclasses)]

def Body.fields : (k : RootKind) → Body k → List (String × Json)
  | .classDecl => ClassBody.fields d
  | .fileFacade => Declarations.fields d
  | .syntheticClass => fun (f? : Option FunctionDecl) =>
    [("function", .orNull (FunctionDecl.toJson d) f?), ("is_lambda", .bool f?.isSome)]
  | .multiFileFacade => fun parts => [("part_class_names", .list .text parts)]
  | .multiFilePart => fun (b : PartBody) =>
    b.declarations.fields d ++ [("facade_class_name", .text b.facadeName)]

/-- One flat object: header, owner, and what the kind has. -/
def Graph.toJson (g : Graph) : Json :=
  .record ([("kind", .text g.kind.label),
    ("version", .list (fun i => .int i.toInt) g.header.version.toParts),
    ("extra_int", .int g.header.extraInt.toInt),
    ("package_name", .orNull .text g.header.packageName), ("owner", .text g.owner)] ++
    Body.fields d g.kind g.root.body)

end

end DeclGraph

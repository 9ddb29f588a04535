import DeclGraph.Proofs.Layout.Migration

/-! What a graph demands of the stream, in the order of the layout: it has texts, lists, type parameters with their
places and references to type parameters. Some demands cannot be met in the layout of some version. -/
namespace DeclGraph

namespace TypeRef

mutual

/-- A type, its arguments, their arguments and so on, in the order of the layout. -/
def nested : TypeRef → List TypeRef
  | mk f c as => mk f c as :: nestedOfArguments as

def nestedOfArguments : List TypeArgument → List TypeRef
  | [] => []
  | a :: as => nestedOfArgument a ++ nestedOfArguments as

def nestedOfArgument : TypeArgument → List TypeRef
  | .star => []
  | .projection _ t => t.nested

end

/-- Somewhere in the type is a reference to a type parameter that no word can hold. -/
def RefersTooFar (t : TypeRef) : Prop :=
  ∃ u ∈ t.nested, ∃ index, u.classifier = .parameter index ∧ maxWord < index.toNat

end TypeRef

/-- Something in a graph that has to be written. -/
inductive Demand where
  | text (s : String)
  | list (length : Nat)
  | feature (feature : Feature) (length : Nat)
  | reference (index : UInt32)
  | place (name : String) (index : UInt32) (position : Nat)
  deriving DecidableEq, Repr

namespace Demand

def text? : Demand → Option String
  | text s => some s
  | _ => none

def length? : Demand → Option Nat
  | list length => some length
  | feature _ length => some length
  | _ => none

/-- Why the demand cannot be met in the layout of a version, for a reason that lies neither in a length nor in the
string table. -/
def obstacle? (v : Version) : Demand → Option EncodeError
  | feature extra length =>
    if v.major = 1 ∧ length ≠ 0 then some (.unsupportedFeature extra v.major) else none
  | reference index =>
    if maxWord < index.toNat then some (.tooLarge "type parameter reference" index.toNat) else none
  | place name index position =>
    if index.toNat ≠ position then some (.typeParameterIndexMismatch name position index) else none
  | _ => none

def ofList {α : Type} (item : α → List Demand) (xs : List α) : List Demand := .list xs.length :: xs.flatMap item

end Demand

open Demand

def Signature.demands (s : Signature) : List Demand := [.text s.name, .text s.descriptor]

def Classifier.demand : Classifier → Demand
  | classNamed name => .text name
  | parameter index => .reference index
  | aliasNamed name => .text name

def TypeRef.ownDemands (t : TypeRef) : List Demand := [t.classifier.demand, .list t.arguments.length]

def TypeRef.demands (t : TypeRef) : List Demand := t.nested.flatMap ownDemands

def ValueParameter.demands (p : ValueParameter) : List Demand := .text p.name :: p.types.flatMap TypeRef.demands

def ConstructorDecl.demands (c : ConstructorDecl) : List Demand :=
  ofList ValueParameter.demands c.valueParameters ++ c.signature.demands

def Accessor.demands (a : Accessor) : List Demand := a.signature.toList.flatMap Signature.demands

/-- The demands of the type parameter at `position` of its list. -/
def TypeParameter.demands (t : TypeParameter) (position : Nat) : List Demand :=
  .place t.name t.index position :: .text t.name :: ofList TypeRef.demands t.upperBounds

def TypeParameter.listDemands (ts : List TypeParameter) : List Demand :=
  .list ts.length :: ts.zipIdx.flatMap fun a => a.1.demands a.2

def FunctionDecl.demands (f : FunctionDecl) : List Demand :=
  .text f.name :: (TypeParameter.listDemands f.typeParameters ++
    (f.receiverType.toList.flatMap TypeRef.demands ++
      (ofList ValueParameter.demands f.valueParameters ++ (f.returnType.demands ++ f.signature.demands))))

def PropertyDecl.demands (p : PropertyDecl) : List Demand :=
  .text p.name :: (TypeParameter.listDemands p.typeParameters ++
    (p.receiverType.toList.flatMap TypeRef.demands ++
      (p.returnType.demands ++
        (p.field.toList.flatMap Signature.demands ++
          (p.getter.toList.flatMap Accessor.demands ++ p.setter.toList.flatMap Accessor.demands)))))

def AliasDecl.demands (a : AliasDecl) : List Demand :=
  .text a.name :: (TypeParameter.listDemands a.typeParameters ++ a.underlyingType.demands)

def Declarations.demands (d : Declarations) : List Demand :=
  ofList FunctionDecl.demands d.functions ++
    (ofList PropertyDecl.demands d.properties ++
      .feature .typeAliases d.aliases.length :: d.aliases.flatMap AliasDecl.demands)

def ClassBody.demands (b : ClassBody) : List Demand :=
  .text b.className :: (b.companionName.toList.map .text ++
    (TypeParameter.listDemands b.typeParameters ++
      (ofList TypeRef.demands b.supertypes ++
        (ofList ConstructorDecl.demands b.constructors ++
          (b.declarations.demands ++
            (ofList (fun s => [.text s]) b.nestedClasses ++
              (ofList (fun s => [.text s]) b.enumEntries ++
                .feature .sealedSubclasses b.sealedSubclasses.length ::
                  b.sealedSubclasses.flatMap (fun s => [.text s]))))))))

def Body.demands : (k : RootKind) → Body k → List Demand
  | .classDecl => ClassBody.demands
  | .fileFacade => Declarations.demands
  | .syntheticClass => fun (f? : Option FunctionDecl) => f?.toList.flatMap FunctionDecl.demands
  | .multiFileFacade => ofList fun s => [.text s]
  | .multiFilePart => fun (b : PartBody) => b.declarations.demands

namespace Graph

/-- What has to be written of a graph, in the order of the layout. -/
def demands (g : Graph) : List Demand := Body.demands g.kind g.root.body

/-- The lengths of all lists of a graph. -/
def lengths (g : Graph) : List Nat := g.demands.filterMap Demand.length?

/-- All texts of a graph that are kept in the string table. -/
def texts (g : Graph) : List String := g.demands.filterMap Demand.text?

/-- What stands in the way of writing a graph in the layout of version `v`, in the order of the layout. -/
def obstacles (v : Version) (g : Graph) : List EncodeError := g.demands.filterMap (·.obstacle? v)

end Graph

/-- Some of the demands cannot be met. -/
def IsBlocked (v : Version) (ds : List Demand) : Prop := ∃ d ∈ ds, (d.obstacle? v).isSome

section
variable {v : Version} {α : Type} {d : Demand} {ds cs : List Demand} {item : α → List Demand} {xs : List α}

@[simp] lemma isBlocked_nil : ¬IsBlocked v [] := by simp [IsBlocked]

@[simp] lemma isBlocked_cons : IsBlocked v (d :: ds) ↔ (d.obstacle? v).isSome ∨ IsBlocked v ds := by
  simp [IsBlocked]

@[simp] lemma isBlocked_append : IsBlocked v (ds ++ cs) ↔ IsBlocked v ds ∨ IsBlocked v cs := by
  simp [IsBlocked, or_and_right, exists_or]

@[simp] lemma isBlocked_flatMap : IsBlocked v (xs.flatMap item) ↔ ∃ x ∈ xs, IsBlocked v (item x) := by
  simp only [IsBlocked, List.mem_flatMap]
  exact ⟨fun ⟨d, ⟨x, hx, hd⟩, h⟩ => ⟨x, hx, d, hd, h⟩, fun ⟨x, hx, d, hd, h⟩ => ⟨d, ⟨x, hx, hd⟩, h⟩⟩

@[simp] lemma isSome_obstacle?_text (s : String) : ¬((Demand.text s).obstacle? v).isSome := nofun

@[simp] lemma isSome_obstacle?_list (n : Nat) : ¬((Demand.list n).obstacle? v).isSome := nofun

@[simp] lemma isSome_obstacle?_feature (feature : Feature) (n : Nat) :
    ((Demand.feature feature n).obstacle? v).isSome ↔ v.major = 1 ∧ n ≠ 0 := by
  simp [Demand.obstacle?]

@[simp] lemma isSome_obstacle?_place (name : String) (index : UInt32) (position : Nat) :
    ((Demand.place name index position).obstacle? v).isSome ↔ index.toNat ≠ position := by
  simp [Demand.obstacle?]

@[simp] lemma isBlocked_ofList : IsBlocked v (ofList item xs) ↔ ∃ x ∈ xs, IsBlocked v (item x) := by
  simp [ofList]

@[simp] lemma isBlocked_texts (ss : List String) : ¬IsBlocked v (ss.flatMap fun s => [.text s]) := by simp

@[simp] lemma Signature.not_isBlocked (s : Signature) : ¬IsBlocked v s.demands := by simp [demands]

@[simp] lemma Accessor.not_isBlocked (a : Accessor) : ¬IsBlocked v a.demands := by simp [demands]

lemma TypeRef.isBlocked_iff (t : TypeRef) : IsBlocked v t.demands ↔ t.RefersTooFar := by
  have hown (u : TypeRef) : IsBlocked v u.ownDemands ↔
      ∃ index, u.classifier = .parameter index ∧ maxWord < index.toNat := by
    cases hu : u.classifier <;> simp [ownDemands, hu, Classifier.demand, Demand.obstacle?]
  simp only [demands, RefersTooFar, isBlocked_flatMap, hown]

@[simp] lemma ValueParameter.isBlocked_iff (p : ValueParameter) :
    IsBlocked v p.demands ↔ IsBlocked v (p.types.flatMap TypeRef.demands) := by simp [demands]

@[simp] lemma ConstructorDecl.isBlocked_iff (c : ConstructorDecl) :
    IsBlocked v c.demands ↔ IsBlocked v (c.types.flatMap TypeRef.demands) := by
  simp [demands, types, List.flatMap_assoc]

lemma not_isPositional_iff {ts : List TypeParameter} :
    ¬IsPositional ts ↔ ∃ a ∈ ts.zipIdx, a.1.index.toNat ≠ a.2 := by
  simp only [IsPositional, not_forall, Prod.exists, List.mem_zipIdx_iff_getElem?, exists_prop]
  exact exists_comm

@[simp] lemma TypeParameter.isBlocked_list_iff (ts : List TypeParameter) : IsBlocked v (listDemands ts) ↔
    ¬IsPositional ts ∨ IsBlocked v ((ts.flatMap types).flatMap TypeRef.demands) := by
  have hbounds : (∃ t ∈ ts, ∃ u ∈ t.upperBounds, IsBlocked v u.demands) ↔
      ∃ a ∈ ts.zipIdx, ∃ u ∈ a.1.upperBounds, IsBlocked v u.demands := by
    conv_lhs => rw [← List.zipIdx_map_fst 0 ts]
    simp only [List.mem_map, exists_exists_and_eq_and]
  simp only [List.flatMap_assoc, isBlocked_flatMap, types, hbounds, not_isPositional_iff, ← exists_or, ← and_or_left]
  simp [listDemands, demands]

@[simp] lemma FunctionDecl.isBlocked_iff (f : FunctionDecl) : IsBlocked v f.demands ↔
    ¬IsPositional f.typeParameters ∨ IsBlocked v (f.types.flatMap TypeRef.demands) := by
  simp [demands, types, List.flatMap_assoc, or_assoc]

@[simp] lemma PropertyDecl.isBlocked_iff (p : PropertyDecl) : IsBlocked v p.demands ↔
    ¬IsPositional p.typeParameters ∨ IsBlocked v (p.types.flatMap TypeRef.demands) := by
  simp [demands, types, List.flatMap_assoc, or_assoc]

@[simp] lemma AliasDecl.isBlocked_iff (a : AliasDecl) : IsBlocked v a.demands ↔
    ¬IsPositional a.typeParameters ∨ IsBlocked v (a.types.flatMap TypeRef.demands) := by
  simp [demands, types, List.flatMap_assoc, or_assoc]

/-- If a record can be blocked by the places of its type parameters and by its types alone, so can a list of records. -/
lemma isBlocked_records {lists : α → List TypeParameter} {types : α → List TypeRef}
    (h : ∀ x, IsBlocked v (item x) ↔ ¬IsPositional (lists x) ∨ IsBlocked v ((types x).flatMap TypeRef.demands))
    (xs : List α) : IsBlocked v (xs.flatMap item) ↔
      (∃ ts ∈ xs.map lists, ¬IsPositional ts) ∨ IsBlocked v ((xs.flatMap types).flatMap TypeRef.demands) := by
  rw [List.flatMap_assoc, isBlocked_flatMap, isBlocked_flatMap]
  simp only [h, and_or_left, exists_or, List.mem_map, exists_exists_and_eq_and]

lemma Declarations.isBlocked_iff (d : Declarations) : IsBlocked v d.demands ↔
    (∃ ts ∈ d.typeParameterLists, ¬IsPositional ts) ∨ IsBlocked v (d.types.flatMap TypeRef.demands) ∨
      v.major = 1 ∧ d.aliases ≠ [] := by
  simp only [demands, ofList, isBlocked_append, isBlocked_cons, isSome_obstacle?_list, isSome_obstacle?_feature,
    isBlocked_records FunctionDecl.isBlocked_iff, isBlocked_records PropertyDecl.isBlocked_iff,
    isBlocked_records AliasDecl.isBlocked_iff]
  simp only [typeParameterLists, List.mem_append, or_and_right, exists_or, types, List.flatMap_append,
    isBlocked_append]
  -- Both sides list the same reasons, in another order.
  grind

lemma ClassBody.isBlocked_iff (b : ClassBody) : IsBlocked v b.demands ↔
    (¬IsPositional b.typeParameters ∨ ∃ ts ∈ b.declarations.typeParameterLists, ¬IsPositional ts) ∨
      IsBlocked v (b.types.flatMap TypeRef.demands) ∨
        v.major = 1 ∧ (b.declarations.aliases ≠ [] ∨ b.sealedSubclasses ≠ []) := by
  have hcompanion : ¬IsBlocked v (b.companionName.toList.map .text) := by
    cases b.companionName <;> simp
  have hstrings (ss : List String) : ¬IsBlocked v (ofList (fun s => [.text s]) ss) := by simp
  simp only [demands, isBlocked_cons, isSome_obstacle?_text, isBlocked_append, hcompanion, hstrings,
    TypeParameter.isBlocked_list_iff, isBlocked_ofList, ConstructorDecl.isBlocked_iff, Declarations.isBlocked_iff,
    isSome_obstacle?_feature, isBlocked_texts]
  simp only [types, List.flatMap_append, List.flatMap_assoc, isBlocked_append, isBlocked_flatMap]
  grind

/-- The demands of a graph cannot all be met for one of three reasons. -/
lemma Graph.isBlocked_iff (g : Graph) : IsBlocked v g.demands ↔
    (∃ ts ∈ g.typeParameterLists, ¬IsPositional ts) ∨ (∃ t ∈ g.types, t.RefersTooFar) ∨
      v.major = 1 ∧ (g.aliases ≠ [] ∨ g.sealedSubclasses ≠ []) := by
  have htypes : (∃ t ∈ g.types, t.RefersTooFar) ↔ IsBlocked v (g.types.flatMap TypeRef.demands) := by
    simp only [isBlocked_flatMap, TypeRef.isBlocked_iff]
  rw [htypes]
  obtain ⟨k, header, owner, body⟩ := g
  have hdeclarations (d : Declarations) : IsBlocked v d.demands ↔
      (∃ ts ∈ d.typeParameterLists, ¬IsPositional ts) ∨ IsBlocked v (d.types.flatMap TypeRef.demands) ∨
        v.major = 1 ∧ (d.aliases ≠ [] ∨ ([] : List String) ≠ []) := by
    rw [Declarations.isBlocked_iff, or_iff_left (a := d.aliases ≠ []) (fun h => h rfl)]
  have hnone : ¬(v.major = 1 ∧ (([] : List AliasDecl) ≠ [] ∨ ([] : List String) ≠ [])) := by simp
  cases k with
  | classDecl =>
    rw [typeParameterLists, List.exists_mem_cons_iff]
    exact body.isBlocked_iff
  | fileFacade => exact hdeclarations body
  | syntheticClass =>
    have hfunction := isBlocked_records (v := v) FunctionDecl.isBlocked_iff (body : Option FunctionDecl).toList
    exact hfunction.trans (or_congr_right (or_iff_left hnone).symm)
  | multiFileFacade =>
    have hparts (parts : List String) : ¬IsBlocked v (ofList (fun s => [.text s]) parts) := by simp
    have hneither : ¬((∃ ts ∈ ([] : List (List TypeParameter)), ¬IsPositional ts) ∨
        IsBlocked v (([] : List TypeRef).flatMap TypeRef.demands) ∨
          v.major = 1 ∧ (([] : List AliasDecl) ≠ [] ∨ ([] : List String) ≠ [])) := by simp
    exact iff_of_false (hparts body) hneither
  | multiFilePart => exact hdeclarations body.declarations

end

lemma Graph.exists_obstacle_iff {v : Version} {g : Graph} :
    (∃ error, (g.obstacles v).head? = some error) ↔ IsBlocked v g.demands := by
  rw [obstacles, List.head?_filterMap, ← Option.isSome_iff_exists, List.findSome?_isSome_iff]
  rfl

lemma Graph.unsupportedVersion_notMem_obstacles {v w : Version} {g : Graph} :
    .unsupportedVersion w ∉ g.obstacles v := by
  intro hmem
  obtain ⟨d, -, hd⟩ := List.mem_filterMap.mp hmem
  cases d <;> simp [Demand.obstacle?] at hd

end DeclGraph

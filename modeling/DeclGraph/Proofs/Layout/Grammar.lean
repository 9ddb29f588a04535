import DeclGraph.Graph.Basic
import DeclGraph.Proofs.Payload.Denotation

/-! The layouts of the two major versions as a grammar: which words derive which part of a graph, given the
string table. A count is any number that is not negative, followed by that many items. -/
namespace DeclGraph

namespace Version
variable {v : Version}

lemma of_major_one (h : v.major = 1) :
    v.recordsIndices = false ∧ v.hasAliases = false ∧ v.hasSealedSubclasses = false := by
  simp only [recordsIndices, hasAliases, hasSealedSubclasses, h]
  decide

lemma of_major_two (h : v.major = 2) :
    v.recordsIndices = true ∧ v.hasAliases = true ∧ v.hasSealedSubclasses = true := by
  simp only [recordsIndices, hasAliases, hasSealedSubclasses, h]
  decide

lemma isSupported_iff : v.isSupported ↔ v.major = 1 ∨ v.major = 2 := by
  simp [isSupported]

lemma recordsIndices_cases (hv : v.isSupported) :
    v.major = 1 ∧ v.recordsIndices = false ∨ v.major = 2 ∧ v.recordsIndices = true :=
  (isSupported_iff.mp hv).imp (fun h => ⟨h, (of_major_one h).1⟩) fun h => ⟨h, (of_major_two h).1⟩

lemma hasAliases_cases (hv : v.isSupported) :
    v.major = 1 ∧ v.hasAliases = false ∨ v.major = 2 ∧ v.hasAliases = true :=
  (isSupported_iff.mp hv).imp (fun h => ⟨h, (of_major_one h).2.1⟩) fun h => ⟨h, (of_major_two h).2.1⟩

lemma hasSealedSubclasses_cases (hv : v.isSupported) :
    v.major = 1 ∧ v.hasSealedSubclasses = false ∨ v.major = 2 ∧ v.hasSealedSubclasses = true :=
  (isSupported_iff.mp hv).imp (fun h => ⟨h, (of_major_one h).2.2⟩) fun h => ⟨h, (of_major_two h).2.2⟩

end Version

namespace Grammar
variable {α : Type}

/-- Items one after another. -/
inductive Items (item : List Int32 → α → Prop) : List Int32 → List α → Prop
  | nil : Items item [] []
  | cons {ws vs : List Int32} {x : α} {xs : List α} :
    item ws x → Items item vs xs → Items item (ws ++ vs) (x :: xs)

/-- Items one after another, where an item may depend on its position. -/
inductive NumberedItems (item : Nat → List Int32 → α → Prop) : Nat → List Int32 → List α → Prop
  | nil {position : Nat} : NumberedItems item position [] []
  | cons {position : Nat} {ws vs : List Int32} {x : α} {xs : List α} :
    item position ws x → NumberedItems item (position + 1) vs xs →
      NumberedItems item position (ws ++ vs) (x :: xs)

/-- A count and as many items. -/
inductive Counted (item : List Int32 → α → Prop) : List Int32 → List α → Prop
  | mk {n : Int32} {ws : List Int32} {xs : List α} :
    n.toInt = xs.length → Items item ws xs → Counted item (n :: ws) xs

/-- A count and as many items, with positions from zero on. -/
inductive NumberedCounted (item : Nat → List Int32 → α → Prop) : List Int32 → List α → Prop
  | mk {n : Int32} {ws : List Int32} {xs : List α} :
    n.toInt = xs.length → NumberedItems item 0 ws xs → NumberedCounted item (n :: ws) xs

/-- The word 0, or the word 1 and an item. -/
inductive Marked (item : List Int32 → α → Prop) : List Int32 → Option α → Prop
  | absent : Marked item [0] none
  | present {ws : List Int32} {x : α} : item ws x → Marked item (1 :: ws) (some x)

/-- An index of the string table. -/
inductive Text (table : List String) : List Int32 → String → Prop
  | index {w : Int32} {s : String} : textAt? table w = some s → Text table [w] s

/-- An index of the string table, or the word -1. -/
inductive OptionalText (table : List String) : List Int32 → Option String → Prop
  | absent : OptionalText table [-1] none
  | present {ws : List Int32} {s : String} : Text table ws s → OptionalText table ws (some s)

/-- A list that major version 2 holds, and major version 1 lacks. -/
inductive Section (v : Version) (item : List Int32 → α → Prop) : List Int32 → List α → Prop
  | present {ws : List Int32} {xs : List α} : v.major = 2 → Counted item ws xs → Section v item ws xs
  | absent : v.major = 1 → Section v item [] []

/-- The position of a type parameter, which major version 2 holds, and major version 1 lacks. -/
inductive Index (v : Version) (position : Nat) : List Int32 → Prop
  | present {w : Int32} : v.major = 2 → w.toInt = position → Index v position [w]
  | absent : v.major = 1 → Index v position []

end Grammar

open Grammar

inductive Signature.Derives (table : List String) : List Int32 → Signature → Prop
  | mk {ns ds : List Int32} {name descriptor : String} :
    Text table ns name → Text table ds descriptor → Derives table (ns ++ ds) ⟨name, descriptor⟩

inductive Classifier.Derives (table : List String) : List Int32 → Classifier → Prop
  | classNamed {ns : List Int32} {name : String} :
    Text table ns name → Derives table (0 :: ns) (.classNamed name)
  | parameter {w : Int32} : 0 ≤ w.toInt → Derives table [1, w] (.parameter w.toUInt32)
  | aliasNamed {ns : List Int32} {name : String} :
    Text table ns name → Derives table (2 :: ns) (.aliasNamed name)

mutual

inductive TypeRef.Derives (table : List String) : List Int32 → TypeRef → Prop
  | mk {f n : Int32} {cs ws : List Int32} {classifier : Classifier} {arguments : List TypeArgument} :
    classifier.Derives table cs → n.toInt = arguments.length → TypeArgument.AllDerive table ws arguments →
      TypeRef.Derives table (f :: (cs ++ n :: ws)) (.mk (.ofWord f.toUInt32) classifier arguments)

/-- The word -1 is any type, any other the variance of the type that follows. -/
inductive TypeArgument.Derives (table : List String) : List Int32 → TypeArgument → Prop
  | star : TypeArgument.Derives table [-1] .star
  | projection {ws : List Int32} {variance : Variance} {type : TypeRef} :
    TypeRef.Derives table ws type →
      TypeArgument.Derives table (variance.code :: ws) (.projection variance type)

inductive TypeArgument.AllDerive (table : List String) : List Int32 → List TypeArgument → Prop
  | nil : TypeArgument.AllDerive table [] []
  | cons {ws vs : List Int32} {a : TypeArgument} {as : List TypeArgument} :
    TypeArgument.Derives table ws a → TypeArgument.AllDerive table vs as →
      TypeArgument.AllDerive table (ws ++ vs) (a :: as)

end

inductive ValueParameter.Derives (table : List String) : List Int32 → ValueParameter → Prop
  | mk {f : Int32} {ns ts vs : List Int32} {name : String} {type : TypeRef} {vararg : Option TypeRef} :
    Text table ns name → TypeRef.Derives table ts type → Marked (TypeRef.Derives table) vs vararg →
      Derives table (f :: (ns ++ (ts ++ vs))) ⟨.ofWord f.toUInt32, name, type, vararg⟩

inductive ConstructorDecl.Derives (table : List String) : List Int32 → ConstructorDecl → Prop
  | mk {f : Int32} {vs ss : List Int32} {valueParameters : List ValueParameter} {signature : Signature} :
    Counted (ValueParameter.Derives table) vs valueParameters → Signature.Derives table ss signature →
      Derives table (f :: (vs ++ ss)) { flags := .ofWord f.toUInt32, valueParameters, signature }

inductive Accessor.Derives (table : List String) : List Int32 → Accessor → Prop
  | mk {f : Int32} {ss : List Int32} {signature : Option Signature} :
    Marked (Signature.Derives table) ss signature →
      Derives table (f :: ss) { flags := .ofWord f.toUInt32, signature }

section
variable (v : Version) (table : List String)

/-- The type parameter at a position of its list. -/
inductive TypeParameter.Derives (position : Nat) : List Int32 → TypeParameter → Prop
  | mk {f : Int32} {ns is bs : List Int32} {name : String} {variance : Variance}
    {upperBounds : List TypeRef} :
    Text table ns name → Index v position is → Counted (TypeRef.Derives table) bs upperBounds →
      Derives position (f :: (ns ++ (is ++ variance.code :: bs)))
        ⟨.ofWord f.toUInt32, name, UInt32.ofNat position, variance, upperBounds⟩

inductive FunctionDecl.Derives : List Int32 → FunctionDecl → Prop
  | mk {f : Int32} {ns ps rs vs ts ss : List Int32} {name : String} {typeParameters : List TypeParameter}
    {receiverType : Option TypeRef} {valueParameters : List ValueParameter} {returnType : TypeRef}
    {signature : Signature} :
    Text table ns name → NumberedCounted (TypeParameter.Derives v table) ps typeParameters →
      Marked (TypeRef.Derives table) rs receiverType →
      Counted (ValueParameter.Derives table) vs valueParameters → TypeRef.Derives table ts returnType →
      Signature.Derives table ss signature →
      Derives (f :: (ns ++ (ps ++ (rs ++ (vs ++ (ts ++ ss)))))) {
        flags := .ofWord f.toUInt32, name, typeParameters, receiverType, valueParameters, returnType,
        signature }

inductive PropertyDecl.Derives : List Int32 → PropertyDecl → Prop
  | mk {f : Int32} {ns ps rs ts fs gs ss : List Int32} {name : String}
    {typeParameters : List TypeParameter} {receiverType : Option TypeRef} {returnType : TypeRef}
    {field : Option Signature} {getter setter : Option Accessor} :
    Text table ns name → NumberedCounted (TypeParameter.Derives v table) ps typeParameters →
      Marked (TypeRef.Derives table) rs receiverType → TypeRef.Derives table ts returnType →
      Marked (Signature.Derives table) fs field → Marked (Accessor.Derives table) gs getter →
      Marked (Accessor.Derives table) ss setter →
      Derives (f :: (ns ++ (ps ++ (rs ++ (ts ++ (fs ++ (gs ++ ss))))))) {
        flags := .ofWord f.toUInt32, name, typeParameters, receiverType, returnType, field, getter,
        setter }

inductive AliasDecl.Derives : List Int32 → AliasDecl → Prop
  | mk {f : Int32} {ns ps ts : List Int32} {name : String} {typeParameters : List TypeParameter}
    {underlyingType : TypeRef} :
    Text table ns name → NumberedCounted (TypeParameter.Derives v table) ps typeParameters →
      TypeRef.Derives table ts underlyingType →
      Derives (f :: (ns ++ (ps ++ ts))) ⟨.ofWord f.toUInt32, name, typeParameters, underlyingType⟩

inductive Declarations.Derives : List Int32 → Declarations → Prop
  | mk {fs ps as : List Int32} {functions : List FunctionDecl} {properties : List PropertyDecl}
    {aliases : List AliasDecl} :
    Counted (FunctionDecl.Derives v table) fs functions →
      Counted (PropertyDecl.Derives v table) ps properties →
      Section v (AliasDecl.Derives v table) as aliases →
      Derives (fs ++ (ps ++ as)) ⟨functions, properties, aliases⟩

inductive ClassBody.Derives : List Int32 → ClassBody → Prop
  | mk {f : Int32} {ns ms ps ts cs ds nested entries subclasses : List Int32} {className : String}
    {companionName : Option String} {typeParameters : List TypeParameter} {supertypes : List TypeRef}
    {constructors : List ConstructorDecl} {declarations : Declarations}
    {nestedClasses enumEntries sealedSubclasses : List String} :
    Text table ns className → OptionalText table ms companionName →
      NumberedCounted (TypeParameter.Derives v table) ps typeParameters →
      Counted (TypeRef.Derives table) ts supertypes →
      Counted (ConstructorDecl.Derives table) cs constructors →
      Declarations.Derives v table ds declarations → Counted (Text table) nested nestedClasses →
      Counted (Text table) entries enumEntries → Section v (Text table) subclasses sealedSubclasses →
      Derives (f :: (ns ++ (ms ++ (ps ++ (ts ++ (cs ++ (ds ++ (nested ++ (entries ++ subclasses)))))))))
        { flags := .ofWord f.toUInt32, className, companionName, typeParameters, supertypes,
          constructors, declarations, nestedClasses, enumEntries, sealedSubclasses }

/-- The body of a graph of a given kind. The name of the facade of a part is not in the stream. -/
def Body.Derives (facadeName : String) : (k : RootKind) → List Int32 → Body k → Prop
  | .classDecl => ClassBody.Derives v table
  | .fileFacade => Declarations.Derives v table
  | .syntheticClass => Marked (FunctionDecl.Derives v table)
  | .multiFileFacade => Counted (Text table)
  | .multiFilePart => fun ws (b : PartBody) =>
    Declarations.Derives v table ws b.declarations ∧ b.facadeName = facadeName

end

/-- All words of a payload of the class named `owner` derive a graph, in the layout that the version of
the payload selects. -/
inductive Payload.Derives (p : Payload) (owner : String) : Graph → Prop
  | mk {v : Version} {k : RootKind} {body : Body k} :
    Version.ofParts? p.version = some v → v.major = 1 ∨ v.major = 2 → RootKind.ofTag? p.kind = some k →
      Body.Derives v p.strings (p.extraString.getD "") k p.words body →
      Derives p owner ⟨k, ⟨v, p.extraInt, p.packageName⟩, owner, body⟩

end DeclGraph

import DeclGraph.Layout.Decode
import DeclGraph.Proofs.Graph.Renamed
import DeclGraph.Proofs.Layout.RoundTrip
import DeclGraph.Proofs.Payload.Reading

/-! Reading does not look into texts. Of a payload with another text for each entry of its table, the same graph is read
with these texts, or the same error is given. -/
namespace DeclGraph

lemma textAt?_map (φ : String → String) (table : List String) (index : Int32) :
    textAt? (table.map φ) index = (textAt? table index).map φ := by
  unfold textAt?
  split
  · exact List.getElem?_map
  · rfl

def Cursor.renamed (φ : String → String) (c : Cursor) : Cursor := { c with table := c.table.map φ }

namespace Read
open EStateM (bind_of_ok bind_of_error)
variable {α β : Type} {φ : String → String}

/-- A result over the renamed table, where `f` renames what is read. -/
def renamedResult (φ : String → String) (f : α → α) :
    EStateM.Result DecodeError Cursor α → EStateM.Result DecodeError Cursor α
  | .ok x c => .ok (f x) (c.renamed φ)
  | .error e c => .error (e.renamed φ) (c.renamed φ)

/-- Over the renamed table, `r'` does what `r` does over the table, and `f` renames what is read. -/
def Renames (φ : String → String) (r r' : Read α) (f : α → α) : Prop :=
  ∀ c : Cursor, r' (c.renamed φ) = renamedResult φ f (r c)

namespace Renames
variable {r r' : Read α} {f : α → α} {g : β → β}

lemma pure {x y : α} (h : f x = y) : Renames φ (pure x) (pure y) f := by
  rintro c
  rw [← h]
  rfl

lemma throw {e e' : DecodeError} (h : e.renamed φ = e') : Renames φ (throw e) (throw e') f := by
  rintro c
  rw [← h]
  rfl

/-- What follows may depend on what was read, and is given the renamed value. -/
lemma bind {k k' : α → Read β} (h : Renames φ r r' f) (hk : ∀ x, Renames φ (k x) (k' (f x)) g) :
    Renames φ (r >>= k) (r' >>= k') g := by
  intro c
  have hc := h c
  cases hr : r c with
  | ok x d =>
    rw [hr] at hc
    rw [bind_of_ok hr, bind_of_ok hc]
    exact hk x d
  | error e d =>
    rw [hr] at hc
    rw [bind_of_error hr, bind_of_error hc]
    rfl

lemma ite {p : Prop} [Decidable p] {s s' : Read α} (hr : Renames φ r r' f) (hs : Renames φ s s' f) :
    Renames φ (if p then r else s) (if p then r' else s') f := by
  split
  · exact hr
  · exact hs

lemma position : Renames φ Read.position Read.position id := fun _ => rfl

lemma integer : Renames φ integer integer id := by
  rintro ⟨table, position, rest⟩
  cases rest <;> rfl

lemma flagWord : Renames φ flagWord flagWord id := .bind .integer fun _ => .pure rfl

lemma count (what : String) : Renames φ (count what) (count what) id := by
  rintro ⟨table, position, rest⟩
  cases rest with
  | nil => rfl
  | cons w rest =>
    change Read.count what ⟨table.map φ, position, w :: rest⟩ = _
    rw [count_cons, count_cons]
    split <;> rfl

lemma presence (what : String) : Renames φ (presence what) (presence what) id :=
  .bind .position fun _ => .bind .integer fun _ => .ite (.pure rfl) (.ite (.pure rfl) (.throw rfl))

lemma entry (index : Int32) (offset : Nat) : Renames φ (entry index offset) (entry index offset) φ := by
  intro c
  rw [entry_apply, entry_apply, Cursor.renamed, textAt?_map, List.length_map]
  cases textAt? c.table index <;> rfl

lemma text : Renames φ text text φ := .bind .position fun _ => .bind .integer fun _ => .entry _ _

lemma optionalText : Renames φ optionalText optionalText (Option.map φ) :=
  .bind .position fun _ => .bind .integer fun _ => .ite (.pure rfl) (.bind (.entry _ _) fun _ => .pure rfl)

lemma repeated {item : Read α} (h : Renames φ item item f) (n : Nat) :
    Renames φ (repeated item n) (repeated item n) (List.map f) := by
  induction n with
  | zero => exact .pure rfl
  | succ n ih => exact .bind h fun _ => .bind ih fun _ => .pure rfl

lemma numbered {item : Nat → Read α} (h : ∀ i, Renames φ (item i) (item i) f) (start n : Nat) :
    Renames φ (numbered item start n) (numbered item start n) (List.map f) := by
  induction n generalizing start with
  | zero => exact .pure rfl
  | succ n ih => exact .bind (h start) fun _ => .bind (ih (start + 1)) fun _ => .pure rfl

lemma listOf (what : String) {item : Read α} (h : Renames φ item item f) :
    Renames φ (listOf what item) (listOf what item) (List.map f) :=
  .bind (.count what) fun n => .repeated h n

lemma optional (what : String) {item : Read α} (h : Renames φ item item f) :
    Renames φ (optional what item) (optional what item) (Option.map f) :=
  .bind (.presence what) fun _ => .ite (.bind h fun _ => .pure rfl) (.pure rfl)

lemma sectionOf (present : Bool) (what : String) {item : Read α} (h : Renames φ item item f) :
    Renames φ (sectionOf present what item) (sectionOf present what item) (List.map f) :=
  .ite (.listOf what h) (.pure rfl)

end Renames
end Read

open Read

section
variable {φ : String → String}

lemma Signature.read_renames : Renames φ Signature.read Signature.read (renamed φ) :=
  .bind .text fun _ => .bind .text fun _ => .pure rfl

lemma Variance.ofWord_renames (code : Int32) (offset : Nat) : Renames φ (ofWord code offset) (ofWord code offset) id := by
  unfold ofWord
  cases Variance.ofCode? code with
  | some v => exact .pure rfl
  | none => exact .throw rfl

lemma Variance.read_renames : Renames φ Variance.read Variance.read id :=
  .bind .position fun _ => .bind .integer fun _ => ofWord_renames _ _

lemma Classifier.read_renames : Renames φ Classifier.read Classifier.read (renamed φ) := by
  refine .bind .position fun _ => .bind .integer fun _ => ?_
  refine .ite (.bind .text fun _ => .pure rfl) (.ite ?_ (.ite (.bind .text fun _ => .pure rfl) (.throw rfl)))
  exact .bind .position fun _ => .bind .integer fun _ => .ite (.pure rfl) (.throw rfl)

lemma TypeArgument.read_renames {type : Read TypeRef} (h : Renames φ type type (TypeRef.renamed φ)) :
    Renames φ (TypeArgument.read type) (TypeArgument.read type) (TypeRef.renamedArgument φ) :=
  .bind .position fun _ => .bind .integer fun _ => .ite (.pure rfl)
    (.bind (Variance.ofWord_renames _ _) fun _ => .bind h fun _ => .pure rfl)

namespace TypeRef

lemma readNested_renames (limit depth : Nat) :
    Renames φ (readNested limit depth) (readNested limit depth) (renamed φ) := by
  induction depth with
  | zero => exact .bind .position fun _ => .throw rfl
  | succ depth ih =>
    refine .bind .flagWord fun word => .bind Classifier.read_renames fun classifier => ?_
    refine .bind (.listOf _ (TypeArgument.read_renames ih)) fun arguments => .pure ?_
    rw [renamed, renamedArguments_eq]
    rfl

end TypeRef

variable (v : Version) (limit : Nat)

lemma TypeRef.read_renames : Renames φ (TypeRef.read limit) (TypeRef.read limit) (renamed φ) :=
  readNested_renames limit limit

namespace TypeParameter

/-- The name is looked at only to be shown. -/
lemma checkIndex_renames (name : String) (position : Nat) :
    Renames φ (checkIndex v name position) (checkIndex v (φ name) position) id :=
  .ite (.bind .integer fun _ => .ite (.throw rfl) (.pure rfl)) (.pure rfl)

lemma read_renames (position : Nat) :
    Renames φ (TypeParameter.read v limit position) (TypeParameter.read v limit position) (renamed φ) :=
  .bind .flagWord fun _ => .bind .text fun name => .bind (checkIndex_renames v name position) fun _ =>
    .bind Variance.read_renames fun _ => .bind (.listOf _ (TypeRef.read_renames limit)) fun _ => .pure rfl

lemma readList_renames : Renames φ (readList v limit) (readList v limit) (List.map (renamed φ)) :=
  .bind (.count _) fun n => .numbered (read_renames v limit) 0 n

end TypeParameter

lemma ValueParameter.read_renames :
    Renames φ (ValueParameter.read limit) (ValueParameter.read limit) (renamed φ) :=
  .bind .flagWord fun _ => .bind .text fun _ => .bind (TypeRef.read_renames limit) fun _ =>
    .bind (.optional _ (TypeRef.read_renames limit)) fun _ => .pure rfl

lemma ValueParameter.readList_renames :
    Renames φ (readList limit) (readList limit) (List.map (renamed φ)) :=
  .listOf _ (read_renames limit)

lemma FunctionDecl.read_renames : Renames φ (FunctionDecl.read v limit) (FunctionDecl.read v limit) (renamed φ) :=
  .bind .flagWord fun _ => .bind .text fun _ => .bind (TypeParameter.readList_renames v limit) fun _ =>
    .bind (.optional _ (TypeRef.read_renames limit)) fun _ => .bind (ValueParameter.readList_renames limit) fun _ =>
      .bind (TypeRef.read_renames limit) fun _ => .bind Signature.read_renames fun _ => .pure rfl

lemma ConstructorDecl.read_renames :
    Renames φ (ConstructorDecl.read limit) (ConstructorDecl.read limit) (renamed φ) :=
  .bind .flagWord fun _ => .bind (ValueParameter.readList_renames limit) fun _ =>
    .bind Signature.read_renames fun _ => .pure rfl

lemma Accessor.read_renames : Renames φ Accessor.read Accessor.read (renamed φ) :=
  .bind .flagWord fun _ => .bind (.optional _ Signature.read_renames) fun _ => .pure rfl

lemma PropertyDecl.read_renames : Renames φ (PropertyDecl.read v limit) (PropertyDecl.read v limit) (renamed φ) :=
  .bind .flagWord fun _ => .bind .text fun _ => .bind (TypeParameter.readList_renames v limit) fun _ =>
    .bind (.optional _ (TypeRef.read_renames limit)) fun _ => .bind (TypeRef.read_renames limit) fun _ =>
      .bind (.optional _ Signature.read_renames) fun _ => .bind (.optional _ Accessor.read_renames) fun _ =>
        .bind (.optional _ Accessor.read_renames) fun _ => .pure rfl

lemma AliasDecl.read_renames : Renames φ (AliasDecl.read v limit) (AliasDecl.read v limit) (renamed φ) :=
  .bind .flagWord fun _ => .bind .text fun _ => .bind (TypeParameter.readList_renames v limit) fun _ =>
    .bind (TypeRef.read_renames limit) fun _ => .pure rfl

lemma Declarations.read_renames : Renames φ (Declarations.read v limit) (Declarations.read v limit) (renamed φ) :=
  .bind (.listOf _ (FunctionDecl.read_renames v limit)) fun _ =>
    .bind (.listOf _ (PropertyDecl.read_renames v limit)) fun _ =>
      .bind (.sectionOf _ _ (AliasDecl.read_renames v limit)) fun _ => .pure rfl

lemma ClassBody.read_renames : Renames φ (ClassBody.read v limit) (ClassBody.read v limit) (renamed φ) :=
  .bind .flagWord fun _ => .bind .text fun _ => .bind .optionalText fun _ =>
    .bind (TypeParameter.readList_renames v limit) fun _ => .bind (.listOf _ (TypeRef.read_renames limit)) fun _ =>
      .bind (.listOf _ (ConstructorDecl.read_renames limit)) fun _ => .bind (Declarations.read_renames v limit) fun _ =>
        .bind (.listOf _ .text) fun _ => .bind (.listOf _ .text) fun _ => .bind (.sectionOf _ _ .text) fun _ => .pure rfl

lemma Body.read_renames (facadeName : String) (k : RootKind) :
    Renames φ (Body.read v limit facadeName k) (Body.read v limit facadeName k) (Body.renamed φ k) := by
  cases k with
  | classDecl => exact ClassBody.read_renames v limit
  | fileFacade => exact Declarations.read_renames v limit
  | syntheticClass => exact .optional _ (FunctionDecl.read_renames v limit)
  | multiFileFacade => exact .listOf _ .text
  | multiFilePart => exact .bind (Declarations.read_renames v limit) fun _ => .pure rfl

end

lemma Graph.facadeName?_renamed (φ : String → String) (g : Graph) : (g.renamed φ).facadeName? = g.facadeName? := by
  obtain ⟨k, header, owner, body⟩ := g
  cases k <;> rfl

/-- Whatever takes the place of the texts in the table, the same is read of them, each in its place of the graph, or the
same error is given, with the new name if it shows one. The names of owner, package and facade stay. -/
theorem decode_renamed (φ : String → String) (p : Payload) (s : DecodeSettings) (owner : String) :
    (p.renamed φ).decode s owner = ((p.decode s owner).map (Graph.renamed φ)).mapError (DecodeError.renamed φ) ∧
    ∀ g : Graph, (g.renamed φ).owner = g.owner ∧ (g.renamed φ).header = g.header ∧
      (g.renamed φ).facadeName? = g.facadeName? := by
  refine ⟨?_, fun g => ⟨rfl, rfl, g.facadeName?_renamed φ⟩⟩
  unfold Payload.decode
  simp only [Payload.renamed]
  cases Version.ofParts? p.version with
  | none => rfl
  | some v =>
    cases hsupported : v.isSupported with
    | false => simp only [hsupported]; rfl
    | true =>
      cases RootKind.ofTag? p.kind with
      | none => simp only [hsupported]; rfl
      | some k =>
        have hread : Body.read v s.maxTypeDepth (p.extraString.getD "") k (.start p.words (p.strings.map φ)) = _ :=
          Body.read_renames v s.maxTypeDepth (p.extraString.getD "") k (.start p.words p.strings)
        simp only [hsupported, Bool.not_true, Bool.false_eq_true, if_false, hread]
        cases Body.read v s.maxTypeDepth (p.extraString.getD "") k (.start p.words p.strings) with
        | error e c => rfl
        | ok body c =>
          -- Both readings leave the same words.
          have hremaining : (c.renamed φ).remaining = c.remaining := rfl
          simp only [renamedResult, hremaining]
          split <;> rfl

/-- Texts may become the same. -/
example : (lambdaPayload.renamed fun _ => "x").decode {} "demo/Main$first$1" =
    .ok (lambdaGraph.renamed fun _ => "x") := by decide +kernel

end DeclGraph

import DeclGraph.Proofs.Graph.Content
import DeclGraph.Proofs.Layout.Running

/-! How each record is read from the words of its emissions: as what is stored of it, unless one of its
types is nested too deeply. -/
namespace DeclGraph

open Read

instance : Advances Signature.read := by
  unfold Signature.read
  infer_instance

instance (code : Int32) (offset : Nat) : Advances (Variance.ofWord code offset) := by
  unfold Variance.ofWord
  split <;> infer_instance

instance : Advances Variance.read := by
  unfold Variance.read
  infer_instance

instance : Advances Classifier.read := by
  unfold Classifier.read
  infer_instance

instance (type : Read TypeRef) [Advances type] : Advances (TypeArgument.read type) := by
  unfold TypeArgument.read
  infer_instance

instance (limit depth : Nat) : Advances (TypeRef.readNested limit depth) := by
  induction depth with
  | zero =>
    unfold TypeRef.readNested
    infer_instance
  | succ depth ih =>
    unfold TypeRef.readNested
    infer_instance

section
variable (v : Version) (limit : Nat)

instance : Advances (TypeRef.read limit) := by
  unfold TypeRef.read
  infer_instance

instance (name : String) (position : Nat) : Advances (TypeParameter.checkIndex v name position) := by
  unfold TypeParameter.checkIndex
  infer_instance

instance (position : Nat) : Advances (TypeParameter.read v limit position) := by
  unfold TypeParameter.read
  infer_instance

instance : Advances (TypeParameter.readList v limit) := by
  unfold TypeParameter.readList
  infer_instance

instance : Advances (ValueParameter.read limit) := by
  unfold ValueParameter.read
  infer_instance

instance : Advances (ValueParameter.readList limit) := by
  unfold ValueParameter.readList
  infer_instance

instance : Advances (FunctionDecl.read v limit) := by
  unfold FunctionDecl.read
  infer_instance

instance : Advances (ConstructorDecl.read limit) := by
  unfold ConstructorDecl.read
  infer_instance

instance : Advances Accessor.read := by
  unfold Accessor.read
  infer_instance

instance : Advances (PropertyDecl.read v limit) := by
  unfold PropertyDecl.read
  infer_instance

instance : Advances (AliasDecl.read v limit) := by
  unfold AliasDecl.read
  infer_instance

instance : Advances (Declarations.read v limit) := by
  unfold Declarations.read
  infer_instance

end

section
variable {table : List String} {limit depth : Nat}

lemma Signature.read_runs (s : Signature) :
    Runs table limit depth Signature.read s.emissions [] s :=
  .step (.text s.name) (.last (.text s.descriptor))

lemma Variance.ofWord_runs (variance : Variance) (offset : Nat) :
    Runs table limit depth (Variance.ofWord variance.code offset) [] [] variance := by
  rw [Variance.ofWord, Variance.ofCode?_code]
  exact .pure

lemma Variance.read_runs (variance : Variance) :
    Runs table limit depth Variance.read [.integer variance.code] [] variance :=
  .position fun offset => .step (.integer variance.code) (Variance.ofWord_runs variance offset)

lemma Classifier.read_runs (c : Classifier) :
    Runs table limit depth Classifier.read c.emissions [] c := by
  refine .position fun offset => ?_
  cases c with
  | classNamed name => exact .step (.integer 0) (.last (.text name))
  | aliasNamed name => exact .step (.integer 2) (.last (.text name))
  | parameter index =>
    -- An index that no word can hold was not written.
    refine .step (.integer 1) (.position fun offset => .of_denotes fun ⟨ws, hws⟩ => ?_)
    obtain _ | ⟨⟨hmax, -⟩, -⟩ := hws
    have hlt : index.toNat < 2 ^ 31 := by unfold maxWord at hmax; omega
    have hnonneg : 0 ≤ (Int32.ofNat index.toNat).toInt := by rw [Int32.toInt_ofNat_of_lt hlt]; omega
    have hindex : (Int32.ofNat index.toNat).toUInt32 = index := UInt32.ofNat_toNat
    refine .step (.integer_reference index.toNat) ?_
    rw [if_pos hnonneg, hindex]
    exact .pure

namespace TypeRef

def typesOfArgument : TypeArgument → List TypeRef
  | .star => []
  | .projection _ t => [t]

lemma emissionsOfArguments_eq (as : List TypeArgument) :
    emissionsOfArguments as = as.flatMap emissionsOfArgument := by
  induction as with
  | nil => rfl
  | cons a as ih => rw [emissionsOfArguments, ih, List.flatMap_cons]

lemma storedArguments_eq (as : List TypeArgument) : storedArguments as = as.map storedArgument := by
  induction as with
  | nil => rfl
  | cons a as ih => rw [storedArguments, ih, List.map_cons]

lemma depthOfArguments_le {depth : Nat} (as : List TypeArgument) :
    depthOfArguments as ≤ depth ↔ Fits depth (as.flatMap typesOfArgument) := by
  induction as with
  | nil => simp [depthOfArguments, Fits]
  | cons a as ih =>
    rw [depthOfArguments, Nat.max_le, ih, List.flatMap_cons, fits_append]
    cases a <;> simp [depthOfArgument, typesOfArgument, Fits]

end TypeRef

lemma TypeArgument.read_runs {type : Read TypeRef} [Advances type]
    (htype : ∀ t, Runs table limit depth type t.emissions [t] t.stored) (a : TypeArgument) :
    Runs table limit depth (TypeArgument.read type) (TypeRef.emissionsOfArgument a)
      (TypeRef.typesOfArgument a) (TypeRef.storedArgument a) := by
  refine .position fun offset => ?_
  cases a with
  | star => exact .step (.integer (-1)) .pure
  | projection variance t =>
    refine .step (.integer variance.code) ?_
    rw [if_neg (by cases variance <;> decide)]
    exact .skip (Variance.ofWord_runs variance offset) (htype t).last

lemma TypeRef.readNested_runs (depth : Nat) (t : TypeRef) :
    Runs table limit depth (readNested limit depth) t.emissions [t] t.stored := by
  -- The limit is what an error shows, and stays; the depth left goes down with each argument.
  induction depth generalizing t with
  | zero =>
    have hdeep : ¬Fits 0 [t] := by
      obtain ⟨f, c, as⟩ := t
      simp [Fits, TypeRef.depth]
    exact {
      accepts := fun _ hfits => (hdeep hfits).elim
      refuses := fun _ _ position _ => ⟨position, _, rfl⟩
      detects := fun _ hfits => (hdeep hfits).elim
      passes := fun _ hfits => (hdeep hfits).elim }
  | succ depth ih =>
    obtain ⟨f, c, as⟩ := t
    have hfits : Fits depth (as.flatMap typesOfArgument) ↔ Fits (depth + 1) [mk f c as] := by
      rw [← depthOfArguments_le]
      simp [Fits, TypeRef.depth]
    refine .refit hfits ?_
    rw [emissions, stored, emissionsOfArguments_eq, storedArguments_eq]
    have harguments : Runs table limit depth
        (Read.listOf "type arguments" (TypeArgument.read (readNested limit depth)))
        (Emission.listOf "type arguments" emissionsOfArgument as) (as.flatMap typesOfArgument)
        (as.map storedArgument) :=
      .listOf _ (fun a => by cases a <;> simp [emissionsOfArgument]) (TypeArgument.read_runs ih) as
    exact .step (.flagWord f.toWord) (.skip (Classifier.read_runs c) harguments.last)

lemma TypeRef.read_runs (t : TypeRef) :
    Runs table limit limit (TypeRef.read limit) t.emissions [t] t.stored :=
  readNested_runs limit t

lemma TypeRef.emissions_ne_nil (t : TypeRef) : t.emissions ≠ [] := by
  obtain ⟨f, c, as⟩ := t
  exact List.cons_ne_nil _ _

lemma TypeRef.listOf_runs (what : String) (ts : List TypeRef) :
    Runs table limit limit (Read.listOf what (TypeRef.read limit)) (Emission.listOf what emissions ts) ts
      (ts.map stored) := by
  have h : Runs table limit limit (Read.listOf what (TypeRef.read limit)) (Emission.listOf what emissions ts)
      (ts.flatMap fun t => [t]) (ts.map stored) :=
    .listOf what emissions_ne_nil read_runs ts
  rwa [List.flatMap_singleton'] at h

lemma TypeRef.optional_runs (what : String) (t? : Option TypeRef) :
    Runs table limit limit (Read.optional what (TypeRef.read limit)) (Emission.optional emissions t?) t?.toList
      (t?.map stored) := by
  have h : Runs table limit limit (Read.optional what (TypeRef.read limit)) (Emission.optional emissions t?)
      (t?.toList.flatMap fun t => [t]) (t?.map stored) :=
    .optional what read_runs t?
  rwa [List.flatMap_singleton'] at h

lemma Signature.optional_runs (what : String) (s? : Option Signature) :
    Runs table limit depth (Read.optional what Signature.read) (Emission.optional emissions s?) [] s? := by
  have h : Runs table limit depth (Read.optional what Signature.read) (Emission.optional emissions s?)
      (s?.toList.flatMap fun _ => []) (s?.map id) :=
    .optional what read_runs s?
  rwa [Runs.flatMap_no_types, Option.map_id] at h

lemma ValueParameter.read_runs (p : ValueParameter) :
    Runs table limit limit (ValueParameter.read limit) p.emissions p.types p.stored :=
  .step (.flagWord p.flags.toWord) (.step (.text p.name) (.bind (TypeRef.read_runs p.type)
    (.last (TypeRef.optional_runs _ p.varargElementType))))

lemma ValueParameter.readList_runs (ps : List ValueParameter) :
    Runs table limit limit (ValueParameter.readList limit) (ValueParameter.listEmissions ps)
      (ps.flatMap ValueParameter.types) (ps.map ValueParameter.stored) :=
  .listOf _ (fun _ => List.cons_ne_nil _ _) ValueParameter.read_runs ps

lemma ConstructorDecl.read_runs (c : ConstructorDecl) :
    Runs table limit limit (ConstructorDecl.read limit) c.emissions c.types c.stored :=
  .step (.flagWord c.flags.toWord) (.bare (ValueParameter.readList_runs c.valueParameters)
    (.last (Signature.read_runs c.signature)))

lemma Accessor.read_runs (a : Accessor) :
    Runs table limit depth Accessor.read a.emissions [] a.stored :=
  .step (.flagWord a.flags.toWord) (.last (Signature.optional_runs _ a.signature))

lemma Accessor.optional_runs (what : String) (a? : Option Accessor) :
    Runs table limit depth (Read.optional what Accessor.read) (Emission.optional emissions a?) []
      (a?.map stored) := by
  have h : Runs table limit depth (Read.optional what Accessor.read) (Emission.optional emissions a?)
      (a?.toList.flatMap fun _ => []) (a?.map stored) :=
    .optional what read_runs a?
  rwa [Runs.flatMap_no_types] at h

/-- A list of texts is read as it was written. -/
lemma texts_runs (what : String) (names : List String) :
    Runs table limit depth (Read.listOf what Read.text) (Emission.listOf what (fun s => [.text s]) names) []
      names := by
  have h : Runs table limit depth (Read.listOf what Read.text)
      (Emission.listOf what (fun s => [.text s]) names) (names.flatMap fun _ => []) (names.map id) :=
    .listOf what (fun _ => List.cons_ne_nil _ _) .text names
  rwa [Runs.flatMap_no_types, List.map_id] at h

section
variable {v : Version}

lemma TypeParameter.checkIndex_runs (name : String) {position : Nat} (hmax : position ≤ maxWord) :
    Runs table limit depth (checkIndex v name position)
      (if v.recordsIndices then [.integer (Int32.ofNat position)] else []) [] () := by
  unfold checkIndex
  cases v.recordsIndices with
  | false => exact .pure
  | true =>
    have hlt : position < 2 ^ 31 := by unfold maxWord at hmax; omega
    have hindex : ¬(Int32.ofNat position).toInt ≠ position := by rw [Int32.toInt_ofNat_of_lt hlt]; simp
    refine .step (.integer (Int32.ofNat position)) ?_
    rw [if_neg hindex]
    exact .pure

lemma TypeParameter.read_runs (t : TypeParameter) {position : Nat} (hmax : position ≤ maxWord) :
    Runs table limit limit (TypeParameter.read v limit position) (t.emissions v position) t.types
      t.stored := by
  unfold TypeParameter.emissions
  split
  · next hindex =>
    subst hindex
    refine .step (.flagWord t.flags.toWord) (.step (.text t.name) ?_)
    refine .skip (checkIndex_runs t.name hmax) (.step (Variance.read_runs t.variance) ?_)
    have hstored : t.stored = ⟨.ofWord t.flags.toWord, t.name, UInt32.ofNat t.index.toNat, t.variance,
        t.upperBounds.map TypeRef.stored⟩ := by rw [UInt32.ofNat_toNat]; rfl
    rw [hstored]
    exact .last (TypeRef.listOf_runs _ t.upperBounds)
  · exact .obstacle _

lemma TypeParameter.emissions_ne_nil (t : TypeParameter) (position : Nat) :
    t.emissions v position ≠ [] := by
  unfold TypeParameter.emissions
  split <;> exact List.cons_ne_nil _ _

lemma TypeParameter.numbered_runs (ts : List TypeParameter) {start : Nat}
    (hmax : start + ts.length ≤ maxWord + 1) :
    Runs table limit limit (numbered (TypeParameter.read v limit) start ts.length)
      ((ts.zipIdx start).flatMap fun (t, i) => t.emissions v i) (ts.flatMap TypeParameter.types)
      (ts.map TypeParameter.stored) := by
  induction ts generalizing start with
  | nil => exact .pure
  | cons t ts ih =>
    rw [List.length_cons] at hmax
    rw [List.zipIdx_cons, List.flatMap_cons]
    exact .bind (t.read_runs (by omega)) (ih (by omega)).last

lemma TypeParameter.readList_runs (ts : List TypeParameter) :
    Runs table limit limit (TypeParameter.readList v limit) (TypeParameter.listEmissions v ts)
      (ts.flatMap TypeParameter.types) (ts.map TypeParameter.stored) := by
  -- The count was written, so that every position fits a word.
  refine .of_denotes fun ⟨ws, hws⟩ => ?_
  obtain _ | ⟨⟨hmax, -⟩, -⟩ := hws
  refine .counted ?_ (TypeParameter.numbered_runs ts (by omega))
  have hle : ts.zipIdx.length ≤ (ts.zipIdx.flatMap fun (t, i) => t.emissions v i).length :=
    Runs.length_le_flatMap (fun p => p.1.emissions_ne_nil p.2) ts.zipIdx
  rwa [List.length_zipIdx] at hle

lemma FunctionDecl.read_runs (f : FunctionDecl) :
    Runs table limit limit (FunctionDecl.read v limit) (f.emissions v) f.types f.stored := by
  refine .step (.flagWord f.flags.toWord) (.step (.text f.name) ?_)
  refine .bind (TypeParameter.readList_runs f.typeParameters) ?_
  refine .bind (TypeRef.optional_runs _ f.receiverType) ?_
  refine .bind (ValueParameter.readList_runs f.valueParameters) ?_
  exact .bare (TypeRef.read_runs f.returnType) (.last (Signature.read_runs f.signature))

lemma PropertyDecl.read_runs (p : PropertyDecl) :
    Runs table limit limit (PropertyDecl.read v limit) (p.emissions v) p.types p.stored := by
  refine .step (.flagWord p.flags.toWord) (.step (.text p.name) ?_)
  refine .bind (TypeParameter.readList_runs p.typeParameters) ?_
  refine .bind (TypeRef.optional_runs _ p.receiverType) ?_
  refine .bare (TypeRef.read_runs p.returnType) ?_
  refine .skip (Signature.optional_runs _ p.field) ?_
  exact .skip (Accessor.optional_runs _ p.getter) (.last (Accessor.optional_runs _ p.setter))

lemma AliasDecl.read_runs (a : AliasDecl) :
    Runs table limit limit (AliasDecl.read v limit) (a.emissions v) a.types a.stored := by
  refine .step (.flagWord a.flags.toWord) (.step (.text a.name) ?_)
  exact .bind (TypeParameter.readList_runs a.typeParameters) (.last (TypeRef.read_runs a.underlyingType))

lemma Declarations.read_runs (d : Declarations) :
    Runs table limit limit (Declarations.read v limit) (d.emissions v) d.types d.stored := by
  refine .bind (.listOf _ (fun _ => List.cons_ne_nil _ _) FunctionDecl.read_runs d.functions) ?_
  refine .bind (.listOf _ (fun _ => List.cons_ne_nil _ _) PropertyDecl.read_runs d.properties) ?_
  have haliases : Runs table limit limit
      (Read.sectionOf v.hasAliases Feature.typeAliases.label (AliasDecl.read v limit))
      (Emission.sectionOf v v.hasAliases .typeAliases (AliasDecl.emissions v) d.aliases)
      (d.aliases.flatMap AliasDecl.types) (d.aliases.map AliasDecl.stored) :=
    .sectionOf (fun _ => List.cons_ne_nil _ _) AliasDecl.read_runs d.aliases
  exact haliases.last

lemma ClassBody.sealedSubclasses_runs (names : List String) :
    Runs table limit depth (Read.sectionOf v.hasSealedSubclasses "sealed subclasses" Read.text)
      (Emission.sectionOf v v.hasSealedSubclasses .sealedSubclasses (fun s => [.text s]) names) [] names := by
  have h : Runs table limit depth
      (Read.sectionOf v.hasSealedSubclasses Feature.sealedSubclasses.label Read.text)
      (Emission.sectionOf v v.hasSealedSubclasses .sealedSubclasses (fun s => [.text s]) names)
      (names.flatMap fun _ => []) (names.map id) :=
    .sectionOf (fun _ => List.cons_ne_nil _ _) .text names
  rwa [Runs.flatMap_no_types, List.map_id] at h

lemma ClassBody.read_runs (b : ClassBody) :
    Runs table limit limit (ClassBody.read v limit) (b.emissions v) b.types b.stored := by
  refine .step (.flagWord b.flags.toWord) (.step (.text b.className) ?_)
  refine .step (.optionalText b.companionName) ?_
  refine .bind (TypeParameter.readList_runs b.typeParameters) ?_
  refine .bind (TypeRef.listOf_runs _ b.supertypes) ?_
  refine .bind (.listOf _ (fun _ => List.cons_ne_nil _ _) ConstructorDecl.read_runs b.constructors) ?_
  refine .bare (Declarations.read_runs b.declarations) ?_
  refine .skip (texts_runs _ b.nestedClasses) (.skip (texts_runs _ b.enumEntries) ?_)
  exact .last (ClassBody.sealedSubclasses_runs b.sealedSubclasses)

/-- The body of every graph is read from words that denote its emissions, under the facade name it has. -/
theorem Graph.read_runs (g : Graph) {facadeName : String}
    (hname : ∀ name ∈ g.facadeName?, name = facadeName) :
    Runs table limit limit (Body.read v limit facadeName g.kind) (g.emissions v) g.types
      (Body.stored g.kind g.root.body) := by
  obtain ⟨k, header, owner, body⟩ := g
  cases k with
  | classDecl => exact ClassBody.read_runs body
  | fileFacade => exact Declarations.read_runs body
  | syntheticClass => exact .optional _ FunctionDecl.read_runs body
  | multiFileFacade => exact texts_runs _ body
  | multiFilePart =>
    rw [← hname _ rfl]
    exact (Declarations.read_runs body.declarations).last

end

end

end DeclGraph

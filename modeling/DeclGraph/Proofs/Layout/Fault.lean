import DeclGraph.Proofs.Layout.Following
import DeclGraph.Proofs.Layout.RoundTrip

/-! What an error of a reading says about the payload. An error with an offset points at the word that cannot be
accepted, and shows this word. -/
namespace DeclGraph

open Read Read.Follows

section
variable {p : Payload} {v : Version} {s : DecodeSettings}

instance : Follows p v s Signature.read := by
  unfold Signature.read
  infer_instance

lemma Variance.ne_of_ofCode?_eq_none {code : Int32} (h : ofCode? code = none) : code ≠ 0 ∧ code ≠ 1 ∧ code ≠ 2 := by
  refine ⟨?_, ?_, ?_⟩ <;> rintro rfl <;> cases h

lemma Variance.follows_ofWord {code : Int32} {offset : Nat} (hcode : p.words[offset]? = some code) :
    Follows p v s (Variance.ofWord code offset) := by
  unfold Variance.ofWord
  cases h : Variance.ofCode? code with
  | some variance => exact inferInstanceAs (Follows p v s (pure variance))
  | none => exact .refusal (.value hcode (Variance.ne_of_ofCode?_eq_none h))

instance : Follows p v s Variance.read := located fun _ _ hcode => Variance.follows_ofWord hcode

instance : Follows p v s Classifier.read :=
  located fun _ _ htag => .ite (fun _ => inferInstance) fun hne0 => .ite
    (fun _ => located fun _ _ hindex => .ite (fun _ => inferInstance) fun hneg =>
      .refusal (.value hindex (Int.not_le.mp hneg)))
    fun hne1 => .ite (fun _ => inferInstance) fun hne2 => .refusal (.value htag ⟨hne0, hne1, hne2⟩)

instance (type : Read TypeRef) [Follows p v s type] : Follows p v s (TypeArgument.read type) :=
  located fun _ _ hcode => .ite (fun _ => inferInstance) fun _ =>
    have := Variance.follows_ofWord (v := v) (s := s) hcode
    inferInstance

instance (depth : Nat) : Follows p v s (TypeRef.readNested s.maxTypeDepth depth) := by
  induction depth with
  | zero => exact ⟨fun hn => .depth hn, fun _ => trivial⟩
  | succ depth ih =>
    unfold TypeRef.readNested
    infer_instance

instance : Follows p v s (TypeRef.read s.maxTypeDepth) := by
  unfold TypeRef.read
  infer_instance

instance : Follows p v s (ValueParameter.read s.maxTypeDepth) := by
  unfold ValueParameter.read
  infer_instance

instance : Follows p v s (ValueParameter.readList s.maxTypeDepth) := by
  unfold ValueParameter.readList
  infer_instance

instance : Follows p v s (ConstructorDecl.read s.maxTypeDepth) := by
  unfold ConstructorDecl.read
  infer_instance

instance : Follows p v s Accessor.read := by
  unfold Accessor.read
  infer_instance

section
variable (hv : v.isSupported)
include hv

lemma TypeParameter.follows_checkIndex {name : String} (hname : name ∈ p.strings) (position : Nat) :
    Follows p v s (checkIndex v name position) := by
  refine .ite (fun hrecorded => .word fun found hfound => .ite (fun hne => .refusal ?_) fun _ => inferInstance)
    fun _ => inferInstance
  obtain ⟨-, hnot⟩ | ⟨hmajor, -⟩ := Version.recordsIndices_cases hv
  · rw [hnot] at hrecorded
    cases hrecorded
  · exact .place hmajor hname hfound hne

lemma TypeParameter.follows_read (position : Nat) :
    Follows p v s (TypeParameter.read v s.maxTypeDepth position) := by
  unfold TypeParameter.read
  exact sequence fun _ _ _ _ => named fun name hname =>
    have := follows_checkIndex (s := s) hv hname position
    inferInstance

lemma TypeParameter.follows_readList : Follows p v s (TypeParameter.readList v s.maxTypeDepth) := by
  have := TypeParameter.follows_read (p := p) (s := s) hv
  unfold TypeParameter.readList
  infer_instance

lemma FunctionDecl.follows_read : Follows p v s (FunctionDecl.read v s.maxTypeDepth) := by
  have := TypeParameter.follows_readList (p := p) (s := s) hv
  unfold FunctionDecl.read
  infer_instance

lemma PropertyDecl.follows_read : Follows p v s (PropertyDecl.read v s.maxTypeDepth) := by
  have := TypeParameter.follows_readList (p := p) (s := s) hv
  unfold PropertyDecl.read
  infer_instance

lemma AliasDecl.follows_read : Follows p v s (AliasDecl.read v s.maxTypeDepth) := by
  have := TypeParameter.follows_readList (p := p) (s := s) hv
  unfold AliasDecl.read
  infer_instance

lemma Declarations.follows_read : Follows p v s (Declarations.read v s.maxTypeDepth) := by
  have := FunctionDecl.follows_read (p := p) (s := s) hv
  have := PropertyDecl.follows_read (p := p) (s := s) hv
  have := AliasDecl.follows_read (p := p) (s := s) hv
  unfold Declarations.read
  infer_instance

lemma ClassBody.follows_read : Follows p v s (ClassBody.read v s.maxTypeDepth) := by
  have := TypeParameter.follows_readList (p := p) (s := s) hv
  have := Declarations.follows_read (p := p) (s := s) hv
  unfold ClassBody.read
  infer_instance

/-- Whatever the kind, an error of the body is justified by the stream. -/
theorem Body.follows_read (facadeName : String) (k : RootKind) :
    Follows p v s (Body.read v s.maxTypeDepth facadeName k) := by
  have := FunctionDecl.follows_read (p := p) (s := s) hv
  have := Declarations.follows_read (p := p) (s := s) hv
  cases k with
  | classDecl => exact ClassBody.follows_read hv
  | fileFacade => exact Declarations.follows_read hv
  | syntheticClass => exact inferInstanceAs (Follows p v s (optional _ _))
  | multiFileFacade => exact inferInstanceAs (Follows p v s (listOf _ text))
  | multiFilePart => exact inferInstanceAs (Follows p v s (Declarations.read v s.maxTypeDepth >>= _))

end

end

lemma RootKind.ofTag?_eq_none_iff {tag : Int32} : ofTag? tag = none ↔ tag ∉ ([1, 2, 3, 4, 5] : List Int32) := by
  constructor
  · intro h hmem
    simp only [List.mem_cons, List.not_mem_nil, or_false] at hmem
    obtain rfl | rfl | rfl | rfl | rfl := hmem <;> cases h
  · intro h
    unfold ofTag?
    split <;> first | rfl | exact (h (by decide)).elim

lemma Version.ofParts?_eq_none_iff {parts : List Int32} : ofParts? parts = none ↔ parts.length ≠ 3 := by
  unfold ofParts?
  split
  · simp
  · next hne =>
    refine iff_of_true rfl fun hlength => ?_
    obtain ⟨a, b, c, rfl⟩ := List.length_eq_three.mp hlength
    exact hne a b c rfl

section
variable {p : Payload} {s : DecodeSettings} {owner : String} {e : DecodeError}

/-- An error of the stream is justified by it. -/
lemma Payload.faulty_of_decode {v : Version} {k : RootKind} (hparts : Version.ofParts? p.version = some v)
    (hv : v.isSupported) (hk : RootKind.ofTag? p.kind = some k) (h : p.decode s owner = .error e) :
    p.Faulty v s e := by
  have hend : p.Explains v s (Body.read v s.maxTypeDepth (p.extraString.getD "") k (.start p.words p.strings)) :=
    (Body.follows_read hv (p.extraString.getD "") k).explained (Nat.zero_le _)
  unfold Payload.decode at h
  simp only [hparts, hv, hk, Bool.not_true, Bool.false_eq_true, if_false] at h
  cases hbody : Body.read v s.maxTypeDepth (p.extraString.getD "") k (.start p.words p.strings) with
  | error e' c =>
    rw [hbody] at hend
    simp only [hbody] at h
    cases h
    exact hend
  | ok body c =>
    rw [hbody] at hend
    simp only [hbody] at h
    split at h
    · next htrailing =>
      cases h
      obtain ⟨n, hn, rfl⟩ := hend
      refine .trailing (by simpa using htrailing.2) htrailing.1 ?_
      simp only [Payload.cursor, Cursor.remaining, List.length_drop]
      omega
    · cases h

/-- An error of the header, or of the stream behind it. -/
lemma Payload.decode_error_cases (h : p.decode s owner = .error e) :
    Version.ofParts? p.version = none ∧ e = .invalidVersion p.version ∨
      ∃ v, Version.ofParts? p.version = some v ∧
        (¬v.isSupported ∧ e = .unsupportedVersion v ∨
          v.isSupported ∧ (RootKind.ofTag? p.kind = none ∧ e = .unknownKind p.kind ∨
            RootKind.ofTag? p.kind ≠ none ∧ p.Faulty v s e)) := by
  cases hparts : Version.ofParts? p.version with
  | none =>
    simp only [Payload.decode, hparts] at h
    cases h
    exact .inl ⟨rfl, rfl⟩
  | some v =>
    refine .inr ⟨v, rfl, ?_⟩
    by_cases hv : v.isSupported
    · refine .inr ⟨hv, ?_⟩
      cases hk : RootKind.ofTag? p.kind with
      | none =>
        simp only [Payload.decode, hparts, hv, hk] at h
        cases h
        exact .inl ⟨rfl, rfl⟩
      | some k => exact .inr ⟨by simp, faulty_of_decode hparts hv hk h⟩
    · simp only [Payload.decode, hparts, hv] at h
      cases h
      exact .inl ⟨hv, rfl⟩

/-- An error tells what is wrong with the payload. The version is looked at first, then the kind, then the stream. -/
theorem decode_error (h : p.decode s owner = .error e) :
    (e = .invalidVersion p.version ↔ p.version.length ≠ 3) ∧
    ∀ v, Version.ofParts? p.version = some v →
      (e = .unsupportedVersion v ↔ v.major ≠ 1 ∧ v.major ≠ 2) ∧
      (v.major = 1 ∨ v.major = 2 →
        (e = .unknownKind p.kind ↔ p.kind ∉ ([1, 2, 3, 4, 5] : List Int32)) ∧
        (p.kind ∈ ([1, 2, 3, 4, 5] : List Int32) → p.Faulty v s e)) := by
  obtain ⟨hparts, rfl⟩ | ⟨v, hparts, hcases⟩ := Payload.decode_error_cases h
  · refine ⟨iff_of_true rfl (Version.ofParts?_eq_none_iff.mp hparts), fun v hv => ?_⟩
    cases hparts.symm.trans hv
  -- The other errors are no complaint about the number of components.
  have hlength : ¬p.version.length ≠ 3 := mt Version.ofParts?_eq_none_iff.mpr (by simp [hparts])
  have hversion (w : Version) (hw : Version.ofParts? p.version = some w) : w = v :=
    Option.some.inj (hw.symm.trans hparts)
  obtain ⟨hv, rfl⟩ | ⟨hv, hcases⟩ := hcases
  · have hmajor : ¬(v.major = 1 ∨ v.major = 2) := mt Version.isSupported_iff.mpr hv
    refine ⟨iff_of_false nofun hlength, fun w hw => ?_⟩
    obtain rfl := hversion w hw
    exact ⟨iff_of_true rfl (not_or.mp hmajor), fun hsupported => (hmajor hsupported).elim⟩
  have hmajor : ¬(v.major ≠ 1 ∧ v.major ≠ 2) := fun hne => not_or.mpr hne (Version.isSupported_iff.mp hv)
  obtain ⟨hkind, rfl⟩ | ⟨hkind, hfaulty⟩ := hcases
  · have hnot := RootKind.ofTag?_eq_none_iff.mp hkind
    refine ⟨iff_of_false nofun hlength, fun w hw => ?_⟩
    obtain rfl := hversion w hw
    exact ⟨iff_of_false nofun hmajor, fun _ => ⟨iff_of_true rfl hnot, fun hmem => (hnot hmem).elim⟩⟩
  · have hmem := mt RootKind.ofTag?_eq_none_iff.mpr hkind
    have hinvalid (parts : List Int32) : e ≠ .invalidVersion parts := by
      rintro rfl
      cases hfaulty
    have hunsupported (w : Version) : e ≠ .unsupportedVersion w := by
      rintro rfl
      cases hfaulty
    have hunknown (tag : Int32) : e ≠ .unknownKind tag := by
      rintro rfl
      cases hfaulty
    refine ⟨iff_of_false (hinvalid _) hlength, fun w hw => ?_⟩
    obtain rfl := hversion w hw
    exact ⟨iff_of_false (hunsupported _) hmajor, fun _ => ⟨iff_of_false (hunknown _) hmem, fun _ => hfaulty⟩⟩

/-- The third word is not an index of the table. -/
theorem decode_error_index :
    let p := { lambdaPayload with words := [1, 6, 9] }
    p.decode {} "demo/Main$first$1" = .error (.stringIndexOutOfRange 9 2 4) ∧
      p.Faulty .current {} (.stringIndexOutOfRange 9 2 4) := by
  intro p
  have h : p.decode {} "demo/Main$first$1" = .error (.stringIndexOutOfRange 9 2 4) := by decide +kernel
  exact ⟨h, (((decode_error h).2 .current rfl).2 (.inr rfl)).2 (by decide)⟩

end

end DeclGraph

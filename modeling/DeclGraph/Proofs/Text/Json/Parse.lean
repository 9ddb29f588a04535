import DeclGraph.Proofs.Text.Json.Quoted
import DeclGraph.Text.Json.Parse

/-! Reading what was written. A value whose numbers and strings are spelled as in JSON comes back from its
text: the text is cut into the tokens of the value, and these build the value. -/
namespace DeclGraph.Json

mutual

/-- Numbers and strings are spelled as in JSON. -/
def IsWellSpelled : Json → Prop
  | null => True
  | bool _ => True
  | number s => isNumber s.toList
  | string s => IsSpelling s.toList
  | array vs => AreWellSpelled vs
  | object fs => AreFieldsWellSpelled fs

def AreWellSpelled : List Json → Prop
  | [] => True
  | v :: vs => v.IsWellSpelled ∧ AreWellSpelled vs

def AreFieldsWellSpelled : List (String × Json) → Prop
  | [] => True
  | (k, v) :: fs => IsSpelling k.toList ∧ v.IsWellSpelled ∧ AreFieldsWellSpelled fs

end

mutual

/-- The tokens of a value. -/
def toTokens : Json → List Token
  | array [] => [.openArray, .closeArray]
  | array (v :: vs) => .openArray :: (v.toTokens ++ (itemTokens vs ++ [.closeArray]))
  | object [] => [.openObject, .closeObject]
  | object ((k, v) :: fs) =>
    .openObject :: .leaf (string k) :: .colon :: (v.toTokens ++ (fieldTokens fs ++ [.closeObject]))
  | v => [.leaf v]

def itemTokens : List Json → List Token
  | [] => []
  | v :: vs => .comma :: (v.toTokens ++ itemTokens vs)

def fieldTokens : List (String × Json) → List Token
  | [] => []
  | (k, v) :: fs => .comma :: .leaf (string k) :: .colon :: (v.toTokens ++ fieldTokens fs)

end

/-- A character that ends a leaf without quotes. -/
def isDelimiter (c : Char) : Bool := isBlank c || (punctuation? c).isSome || c == '"'

/-- What may follow a leaf without quotes. -/
def Ends (cs : List Char) : Prop := ∀ c ∈ cs.head?, isDelimiter c

section Numbers

/-- A character that may stand in a number. -/
def isNumeric (c : Char) : Bool := c.isDigit || c ∈ ['-', '+', '.', 'e', 'E']

lemma isNumeric_of_isDigit {c : Char} (h : c.isDigit) : isNumeric c := by simp [isNumeric, h]

lemma forall_isNumeric_of_digits {cs : List Char} (h : cs.all Char.isDigit) : ∀ c ∈ cs, isNumeric c :=
  fun c hc => isNumeric_of_isDigit (List.all_eq_true.mp h c hc)

lemma forall_isNumeric_of_dropWhile {cs : List Char} (h : ∀ c ∈ cs.dropWhile Char.isDigit, isNumeric c) :
    ∀ c ∈ cs, isNumeric c := by
  intro c hc
  rw [← List.takeWhile_append_dropWhile (p := Char.isDigit) (l := cs), List.mem_append] at hc
  obtain hdigit | hrest := hc
  · exact isNumeric_of_isDigit (List.all_eq_true.mp List.all_takeWhile c hdigit)
  · exact h c hrest

lemma isExponent_numeric {cs : List Char} (h : isExponent cs) : ∀ c ∈ cs, isNumeric c := by
  unfold isExponent at h
  split at h <;> rw [Bool.and_eq_true] at h
  · exact List.forall_mem_cons.mpr ⟨rfl, forall_isNumeric_of_digits h.2⟩
  · exact List.forall_mem_cons.mpr ⟨rfl, forall_isNumeric_of_digits h.2⟩
  · exact forall_isNumeric_of_digits h.2

lemma isAfterFraction_numeric {cs : List Char} (h : isAfterFraction cs) : ∀ c ∈ cs, isNumeric c := by
  cases cs with
  | nil => exact List.forall_mem_nil _
  | cons c cs =>
    simp only [isAfterFraction, Bool.and_eq_true, Bool.or_eq_true, beq_iff_eq] at h
    refine List.forall_mem_cons.mpr ⟨?_, isExponent_numeric h.2⟩
    obtain rfl | rfl := h.1 <;> rfl

lemma isAfterInteger_numeric {cs : List Char} (h : isAfterInteger cs) : ∀ c ∈ cs, isNumeric c := by
  unfold isAfterInteger at h
  split at h
  · next d cs =>
    rw [Bool.and_eq_true] at h
    have hrest := forall_isNumeric_of_dropWhile (isAfterFraction_numeric h.2)
    exact List.forall_mem_cons.mpr ⟨rfl, List.forall_mem_cons.mpr ⟨isNumeric_of_isDigit h.1, hrest⟩⟩
  · exact isAfterFraction_numeric h

lemma isMagnitude_numeric {cs : List Char} (h : isMagnitude cs) : ∀ c ∈ cs, isNumeric c := by
  unfold isMagnitude at h
  split at h
  · exact List.forall_mem_cons.mpr ⟨rfl, isAfterInteger_numeric h⟩
  · rw [Bool.and_eq_true] at h
    have hrest := forall_isNumeric_of_dropWhile (isAfterInteger_numeric h.2)
    exact List.forall_mem_cons.mpr ⟨isNumeric_of_isDigit h.1, hrest⟩
  · cases h

lemma isNumber_numeric {cs : List Char} (h : isNumber cs) : ∀ c ∈ cs, isNumeric c := by
  unfold isNumber at h
  split at h
  · exact List.forall_mem_cons.mpr ⟨rfl, isMagnitude_numeric h⟩
  · exact isMagnitude_numeric h

lemma isNumber_ne_nil {cs : List Char} (h : isNumber cs) : cs ≠ [] := by
  rintro rfl
  cases h

lemma isDelimiter_of_isNumeric {c : Char} (h : isNumeric c) : isDelimiter c = false := by
  have hpunctuation : punctuation? c = none := by
    unfold punctuation?
    split <;> first | rfl | cases h
  have hblank : isBlank c = false := by
    by_contra hc
    rw [Bool.not_eq_false] at hc
    simp only [isBlank, Bool.or_eq_true, beq_iff_eq] at hc
    obtain ((rfl | rfl) | rfl) | rfl := hc <;> cases h
  have hquote : c ≠ '"' := by
    rintro rfl
    cases h
  simp [isDelimiter, hpunctuation, hblank, hquote]

/-- A number is none of the words that are spelled without quotes. -/
lemma bareLeaf?_of_isNumber {cs : List Char} (h : isNumber cs) :
    bareLeaf? cs = some (.leaf (number (String.ofList cs))) := by
  have hword {word : String} {c : Char} (hc : c ∈ word.toList) (hnot : isNumeric c = false) :
      String.ofList cs ≠ word := by
    rintro rfl
    rw [String.toList_ofList] at hc
    rw [isNumber_numeric h c hc] at hnot
    cases hnot
  unfold bareLeaf?
  split
  · next heq => exact absurd heq (hword (c := 'n') (by simp) rfl)
  · next heq => exact absurd heq (hword (c := 't') (by simp) rfl)
  · next heq => exact absurd heq (hword (c := 'f') (by simp) rfl)
  · exact if_pos h

end Numbers

section Tokens
variable {cs rest : List Char} {ts : List Token} {c : Char}

lemma tokens_cons {place place' : Place} (h : readChar place c = some (place', ts)) (cs : List Char) :
    tokens place (c :: cs) = (tokens place' cs).map (ts ++ ·) := by
  simp only [tokens, h, Option.bind_eq_bind, Option.bind_some]
  cases tokens place' cs <;> rfl

/-- A character that completes no token. -/
lemma tokens_step {place place' : Place} (h : readChar place c = some (place', [])) (cs : List Char) :
    tokens place (c :: cs) = tokens place' cs :=
  (tokens_cons h cs).trans Option.map_id'

lemma tokens_between_cons (c : Char) (cs : List Char) : tokens .between (c :: cs) =
    (tokens (startToken c).1 cs).map ((startToken c).2 ++ ·) := tokens_cons rfl cs

lemma tokens_punctuation {t : Token} (h : punctuation? c = some t) (cs : List Char) :
    tokens .between (c :: cs) = (tokens .between cs).map (t :: ·) := by
  have hblank : isBlank c = false := by
    unfold punctuation? at h
    split at h <;> first | rfl | cases h
  have hstart : startToken c = (.between, [t]) := by simp [startToken, hblank, h]
  rw [tokens_between_cons, hstart]
  rfl

/-- A leaf without quotes goes on up to a delimiter. -/
lemma tokens_bare {run : List Char} (h : ∀ c ∈ cs, isDelimiter c = false) :
    tokens (.bare run) (cs ++ rest) = tokens (.bare (cs.reverse ++ run)) rest := by
  induction cs generalizing run with
  | nil => rfl
  | cons c cs ih =>
    obtain ⟨hc, hcs⟩ := List.forall_mem_cons.mp h
    have hread : readChar (.bare run) c = some (.bare (c :: run), []) := if_neg (Bool.eq_false_iff.mp hc)
    rw [List.cons_append, tokens_step hread, ih hcs, List.reverse_cons, List.append_assoc]
    rfl

lemma tokens_bare_end {run : List Char} {t : Token} (ht : bareLeaf? run.reverse = some t) (h : Ends rest) :
    tokens (.bare run) rest = (tokens .between rest).map (t :: ·) := by
  cases rest with
  | nil =>
    simp [tokens, ht]
  | cons c cs =>
    have hc : isDelimiter c := h c rfl
    have hread : readChar (.bare run) c = some ((startToken c).1, t :: (startToken c).2) := by
      refine (if_pos hc).trans ?_
      rw [ht]
      rfl
    rw [tokens_cons hread, tokens_between_cons, Option.map_map]
    rfl

/-- The spelling of a string, up to the closing quote. -/
lemma tokens_quoted {cs : List Char} (h : IsSpelling cs) (body rest : List Char) :
    tokens (.quoted body) (cs ++ '"' :: rest) =
      (tokens .between rest).map (.leaf (string (String.ofList (body.reverse ++ cs))) :: ·) := by
  induction h generalizing body with
  | nil =>
    have hread : readChar (.quoted body) '"' =
        some (.between, [.leaf (string (String.ofList body.reverse))]) := rfl
    rw [List.append_nil]
    exact tokens_cons hread rest
  | @plain c cs hquote hescape hcontrol _ ih =>
    have hread : readChar (.quoted body) c = some (.quoted (c :: body), []) := by
      simp [readChar, hquote, hescape, Nat.not_lt_of_le hcontrol]
    rw [List.cons_append, tokens_step hread, ih, List.reverse_cons, List.append_assoc]
    rfl
  | @short c cs hc _ ih =>
    have hbackslash : readChar (.quoted body) '\\' = some (.escaped ('\\' :: body), []) := rfl
    have hread : readChar (.escaped ('\\' :: body)) c = some (.quoted (c :: '\\' :: body), []) := by
      simp only [List.mem_cons, List.not_mem_nil, or_false] at hc
      obtain rfl | rfl | rfl | rfl | rfl | rfl | rfl | rfl := hc <;> rfl
    rw [List.cons_append, tokens_step hbackslash, List.cons_append, tokens_step hread, ih]
    simp
  | @unit a b c d cs ha hb hc hd _ ih =>
    have hbackslash : readChar (.quoted body) '\\' = some (.escaped ('\\' :: body), []) := rfl
    have hletter : readChar (.escaped ('\\' :: body)) 'u' = some (.hex 3 ('u' :: '\\' :: body), []) := rfl
    have hdigit {x : Char} (hx : IsHex x) (n : Nat) (run : List Char) :
        readChar (.hex (n + 1) run) x = some (.hex n (x :: run), []) := by
      obtain ⟨i, hi⟩ := Option.isSome_iff_exists.mp hx
      simp [readChar, hi]
    have hlast {run : List Char} : readChar (.hex 0 run) d = some (.quoted (d :: run), []) := by
      obtain ⟨i, hi⟩ := Option.isSome_iff_exists.mp hd
      simp [readChar, hi]
    simp only [List.cons_append]
    rw [tokens_step hbackslash, tokens_step hletter, tokens_step (hdigit ha 2 _), tokens_step (hdigit hb 1 _),
      tokens_step (hdigit hc 0 _), tokens_step hlast, ih]
    simp

end Tokens

section Cut
variable {cs ds : List Char} {ts us : List Token}

lemma ends_cons {c : Char} (h : isDelimiter c) (cs : List Char) : Ends (c :: cs) := by
  rintro _ ⟨⟩
  exact h

/-- The test runs over the text, where deciding the quantifier may run over all characters there are. -/
lemma forall_isDelimiter_eq_false (h : cs.any isDelimiter = false) : ∀ c ∈ cs, isDelimiter c = false :=
  fun c hc => Bool.eq_false_iff.mpr (List.any_eq_false.mp h c hc)

/-- In front of what ends a leaf, the text is cut into the tokens. -/
def IsCutInto (cs : List Char) (ts : List Token) : Prop := ∀ rest, Ends rest →
  tokens .between (cs ++ rest) = (tokens .between rest).map (ts ++ ·)

namespace IsCutInto

lemma nil : IsCutInto [] [] := fun _ _ => Option.map_id'.symm

lemma append (h : IsCutInto cs ts) (h' : IsCutInto ds us) (hds : ∀ rest, Ends rest → Ends (ds ++ rest)) :
    IsCutInto (cs ++ ds) (ts ++ us) := by
  intro rest hrest
  rw [List.append_assoc, h _ (hds rest hrest), h' rest hrest, Option.map_map]
  simp only [Function.comp_def, List.append_assoc]

lemma punctuation {c : Char} {t : Token} (hc : punctuation? c = some t) (h : IsCutInto cs ts) :
    IsCutInto (c :: cs) (t :: ts) := by
  intro rest hrest
  rw [List.cons_append, tokens_punctuation hc, h rest hrest, Option.map_map]
  rfl

lemma spelling {s : String} (hs : IsSpelling s.toList) (h : IsCutInto cs ts) :
    IsCutInto ('"' :: (s.toList ++ '"' :: cs)) (.leaf (string s) :: ts) := by
  intro rest hrest
  have hopen : readChar .between '"' = some (.quoted [], []) := rfl
  have happend : '"' :: (s.toList ++ '"' :: cs) ++ rest = '"' :: (s.toList ++ '"' :: (cs ++ rest)) := by simp
  rw [happend, tokens_step hopen, tokens_quoted hs, h rest hrest, Option.map_map, List.reverse_nil,
    List.nil_append, String.ofList_toList]
  rfl

/-- A leaf that is spelled without quotes. -/
lemma bare {t : Token} (ht : bareLeaf? cs = some t) (hne : cs ≠ [])
    (h : ∀ c ∈ cs, isDelimiter c = false) : IsCutInto cs [t] := by
  intro rest hrest
  obtain ⟨c, cs, rfl⟩ := List.exists_cons_of_ne_nil hne
  obtain ⟨hc, hcs⟩ := List.forall_mem_cons.mp h
  have hstart : readChar .between c = some (.bare [c], []) := by
    simp only [isDelimiter, Bool.or_eq_false_iff, beq_eq_false_iff_ne] at hc
    obtain ⟨⟨hblank, hpunctuation⟩, hquote⟩ := hc
    have hnone : punctuation? c = none := by simpa using hpunctuation
    simp [readChar, startToken, hblank, hnone, hquote]
  rw [List.cons_append, tokens_step hstart, tokens_bare hcs, tokens_bare_end _ hrest]
  · rfl
  · simpa using ht

end IsCutInto

lemma ends_renderItems (vs : List Json) {rest : List Char} (h : Ends rest) :
    Ends ((renderItems vs).toList ++ rest) := by
  cases vs with
  | nil => exact h
  | cons v vs =>
    simp only [renderItems, String.toList_append]
    exact ends_cons (by decide) _

lemma ends_renderFields (fs : List (String × Json)) {rest : List Char} (h : Ends rest) :
    Ends ((renderFields fs).toList ++ rest) := by
  cases fs with
  | nil => exact h
  | cons f fs =>
    simp only [renderFields, String.toList_append]
    exact ends_cons (by decide) _

mutual

/-- The text of a value is cut into its tokens. -/
theorem isCutInto_render : (v : Json) → v.IsWellSpelled → IsCutInto v.render.toList v.toTokens
  | null, _ => .bare rfl (by decide) (forall_isDelimiter_eq_false (by decide))
  | bool true, _ => .bare rfl (by decide) (forall_isDelimiter_eq_false (by decide))
  | bool false, _ => .bare rfl (by decide) (forall_isDelimiter_eq_false (by decide))
  | number s, h => by
    have hleaf := bareLeaf?_of_isNumber h
    rw [String.ofList_toList] at hleaf
    exact .bare hleaf (isNumber_ne_nil h) fun c hc => isDelimiter_of_isNumeric (isNumber_numeric h c hc)
  | string s, h => by
    have hrender : (string s).render.toList = '"' :: (s.toList ++ '"' :: []) := by simp [render]
    rw [hrender]
    exact .spelling h .nil
  | array [], _ => .punctuation rfl (.punctuation rfl .nil)
  | array (v :: vs), ⟨hv, hvs⟩ => by
    have hrender : (array (v :: vs)).render.toList =
        '[' :: (v.render.toList ++ ((renderItems vs).toList ++ [']'])) := by simp [render]
    have hrest : IsCutInto ((renderItems vs).toList ++ [']']) (itemTokens vs ++ [.closeArray]) :=
      (isCutInto_renderItems vs hvs).append (.punctuation rfl .nil) fun _ _ => ends_cons rfl _
    rw [hrender]
    refine .punctuation rfl ((isCutInto_render v hv).append hrest fun rest _ => ?_)
    rw [List.append_assoc]
    exact ends_renderItems vs (ends_cons rfl _)
  | object [], _ => .punctuation rfl (.punctuation rfl .nil)
  | object ((k, v) :: fs), ⟨hk, hv, hfs⟩ => by
    have hrender : (object ((k, v) :: fs)).render.toList = '\x7b' :: '"' :: (k.toList ++
        '"' :: ':' :: (v.render.toList ++ ((renderFields fs).toList ++ ['\x7d']))) := by simp [render]
    have hrest : IsCutInto ((renderFields fs).toList ++ ['\x7d']) (fieldTokens fs ++ [.closeObject]) :=
      (isCutInto_renderFields fs hfs).append (.punctuation rfl .nil) fun _ _ => ends_cons rfl _
    rw [hrender]
    refine .punctuation rfl (.spelling hk (.punctuation rfl
      ((isCutInto_render v hv).append hrest fun rest _ => ?_)))
    rw [List.append_assoc]
    exact ends_renderFields fs (ends_cons rfl _)

theorem isCutInto_renderItems :
    (vs : List Json) → AreWellSpelled vs → IsCutInto (renderItems vs).toList (itemTokens vs)
  | [], _ => .nil
  | v :: vs, ⟨hv, hvs⟩ => by
    have hrender : (renderItems (v :: vs)).toList =
        ',' :: (v.render.toList ++ (renderItems vs).toList) := by simp [renderItems]
    rw [hrender]
    exact .punctuation rfl ((isCutInto_render v hv).append (isCutInto_renderItems vs hvs)
      fun _ => ends_renderItems vs)

theorem isCutInto_renderFields :
    (fs : List (String × Json)) → AreFieldsWellSpelled fs → IsCutInto (renderFields fs).toList (fieldTokens fs)
  | [], _ => .nil
  | (k, v) :: fs, ⟨hk, hv, hfs⟩ => by
    have hrender : (renderFields ((k, v) :: fs)).toList = ',' :: '"' :: (k.toList ++
        '"' :: ':' :: (v.render.toList ++ (renderFields fs).toList)) := by simp [renderFields]
    rw [hrender]
    exact .punctuation rfl (.spelling hk (.punctuation rfl
      ((isCutInto_render v hv).append (isCutInto_renderFields fs hfs) fun _ => ends_renderFields fs)))

end

end Cut

section Build

lemma foldlM_step {state state' : State} {t : Token} (h : readToken state t = some state') (ts : List Token) :
    (t :: ts).foldlM readToken state = ts.foldlM readToken state' := by
  rw [List.foldlM_cons, h]
  rfl

/-- After an opening bracket, a value starts as it does elsewhere. -/
lemma foldlM_openArray (v : Json) (ts : List Token) (frames : List Frame) :
    (v.toTokens ++ ts).foldlM readToken (.openArray, .array [] :: frames) =
      (v.toTokens ++ ts).foldlM readToken (.value, .array [] :: frames) := by
  cases v with
  | array vs => cases vs <;> rfl
  | object fs => cases fs <;> rfl
  | _ => rfl

mutual

/-- The tokens of a value build it. -/
theorem foldlM_toTokens : (v : Json) → (ts : List Token) → (frames : List Frame) →
    (v.toTokens ++ ts).foldlM readToken (.value, frames) = ts.foldlM readToken (.whole v, frames)
  | null, _, _ => rfl
  | bool _, _, _ => rfl
  | number _, _, _ => rfl
  | string _, _, _ => rfl
  | array [], _, _ => rfl
  | array (v :: vs), ts, frames => by
    have hopen : readToken (.value, frames) .openArray = some (.openArray, .array [] :: frames) := rfl
    rw [toTokens, List.cons_append, foldlM_step hopen, List.append_assoc, foldlM_openArray, foldlM_toTokens,
      List.append_assoc]
    exact foldlM_itemTokens vs ts frames v []
  | object [], _, _ => rfl
  | object ((k, v) :: fs), ts, frames => by
    have hopen : readToken (.value, frames) .openObject = some (.openObject, .object [] :: frames) := rfl
    have hkey : readToken (.openObject, .object [] :: frames) (.leaf (string k)) =
        some (.colon k, .object [] :: frames) := rfl
    have hcolon : readToken (.colon k, .object [] :: frames) .colon = some (.value, .field [] k :: frames) := rfl
    rw [toTokens, List.cons_append, foldlM_step hopen, List.cons_append, foldlM_step hkey, List.cons_append,
      foldlM_step hcolon, List.append_assoc, foldlM_toTokens, List.append_assoc]
    exact foldlM_fieldTokens fs ts frames k v []

theorem foldlM_itemTokens : (vs : List Json) → (ts : List Token) → (frames : List Frame) → (v : Json) →
    (before : List Json) →
    (itemTokens vs ++ .closeArray :: ts).foldlM readToken (.whole v, .array before :: frames) =
      ts.foldlM readToken (.whole (.array (before.reverse ++ v :: vs)), frames)
  | [], ts, frames, v, before => by
    have hclose : readToken (.whole v, .array before :: frames) .closeArray =
        some (.whole (.array (v :: before).reverse), frames) := rfl
    rw [itemTokens, List.nil_append, foldlM_step hclose, List.reverse_cons]
  | w :: vs, ts, frames, v, before => by
    have hcomma : readToken (.whole v, .array before :: frames) .comma =
        some (.value, .array (v :: before) :: frames) := rfl
    rw [itemTokens, List.cons_append, foldlM_step hcomma, List.append_assoc, foldlM_toTokens,
      foldlM_itemTokens, List.reverse_cons, List.append_assoc]
    rfl

theorem foldlM_fieldTokens : (fs : List (String × Json)) → (ts : List Token) → (frames : List Frame) →
    (k : String) → (v : Json) → (before : List (String × Json)) →
    (fieldTokens fs ++ .closeObject :: ts).foldlM readToken (.whole v, .field before k :: frames) =
      ts.foldlM readToken (.whole (.object (before.reverse ++ (k, v) :: fs)), frames)
  | [], ts, frames, k, v, before => by
    have hclose : readToken (.whole v, .field before k :: frames) .closeObject =
        some (.whole (.object ((k, v) :: before).reverse), frames) := rfl
    rw [fieldTokens, List.nil_append, foldlM_step hclose, List.reverse_cons]
  | (l, w) :: fs, ts, frames, k, v, before => by
    have hcomma : readToken (.whole v, .field before k :: frames) .comma =
        some (.key, .object ((k, v) :: before) :: frames) := rfl
    have hkey : readToken (.key, .object ((k, v) :: before) :: frames) (.leaf (string l)) =
        some (.colon l, .object ((k, v) :: before) :: frames) := rfl
    have hcolon : readToken (.colon l, .object ((k, v) :: before) :: frames) .colon =
        some (.value, .field ((k, v) :: before) l :: frames) := rfl
    rw [fieldTokens, List.cons_append, foldlM_step hcomma, List.cons_append, foldlM_step hkey,
      List.cons_append, foldlM_step hcolon, List.append_assoc, foldlM_toTokens, foldlM_fieldTokens,
      List.reverse_cons, List.append_assoc]
    rfl

end

end Build

/-- A value that is well spelled comes back from its text. -/
theorem parse?_render {v : Json} (h : v.IsWellSpelled) : parse? v.render = some v := by
  have htokens := isCutInto_render v h [] (by simp [Ends])
  have hbuild := foldlM_toTokens v [] []
  rw [List.append_nil] at htokens hbuild
  have hempty : tokens .between [] = some [] := rfl
  rw [hempty, Option.map_some, List.append_nil] at htokens
  simp only [parse?, htokens, Option.bind_eq_bind, Option.bind_some, hbuild]
  rfl

end DeclGraph.Json

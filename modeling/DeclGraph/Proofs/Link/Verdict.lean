import DeclGraph.Proofs.Link.Linked

/-! What is reported of a graph that is linked: one outcome for each declaration that can have links, in the
order of the walk, and at most one diagnostic with it. -/
namespace DeclGraph

namespace Report

/-- The reports in order as one. -/
def join (rs : List Report) : Report := ⟨rs.flatMap (·.outcomes), rs.flatMap (·.diagnostics)⟩

@[simp] lemma append_empty (r : Report) : r.append {} = r := by simp [append]

@[simp] lemma empty_append (r : Report) : append {} r = r := by simp [append]

lemma append_assoc (r s t : Report) : (r.append s).append t = r.append (s.append t) := by simp [append]

@[simp] lemma join_nil : join [] = {} := rfl

@[simp] lemma join_cons (r : Report) (rs : List Report) : join (r :: rs) = r.append (join rs) := rfl

lemma join_append (rs ss : List Report) : join (rs ++ ss) = (join rs).append (join ss) := by
  simp [join, append]

end Report

/-- A declaration that can have links. -/
inductive Linkable where
  | constructor (c : ConstructorDecl)
  | function (f : FunctionDecl)
  | property (p : PropertyDecl)

namespace Linkable

def kind : Linkable → DeclKind
  | constructor _ => .constructor
  | function _ => .function
  | property _ => .property

def name : Linkable → String
  | constructor _ => constructorName
  | function f => f.name
  | property p => p.name

end Linkable

def Declarations.linkables (d : Declarations) : List Linkable :=
  d.functions.map .function ++ d.properties.map .property

/-- The declarations of a graph that can have links, in the order of the walk. -/
def Graph.linkables : Graph → List Linkable
  | ⟨.classDecl, r⟩ => r.body.constructors.map .constructor ++ r.body.declarations.linkables
  | ⟨.fileFacade, r⟩ => Declarations.linkables r.body
  | ⟨.syntheticClass, r⟩ => (r.body : Option FunctionDecl).toList.map .function
  | ⟨.multiFileFacade, _⟩ => []
  | ⟨.multiFilePart, r⟩ => r.body.declarations.linkables

/-- How linking a declaration ended, and what is to be said about it. -/
structure Verdict where
  status : Status
  diagnostic : Option (DiagnosticKind × String) := none
  deriving DecidableEq, Repr

namespace Verdict

def diagnostics (v : Verdict) (o : Owner) : List Diagnostic :=
  v.diagnostic.toList.map fun (kind, message) => ⟨o.name, kind, message⟩

def outcome (v : Verdict) (o : Owner) (kind : DeclKind) (name : String) : Outcome :=
  ⟨o.id, kind, name, v.status⟩

def report (v : Verdict) (o : Owner) (kind : DeclKind) (name : String) : Report :=
  ⟨[v.outcome o kind name], v.diagnostics o⟩

end Verdict

/-- The status of a declaration that lacks a match. -/
def Status.IsFailure (s : Status) : Prop := s = unresolved ∨ s = stillUnresolved

namespace Linker
variable (l : Linker) (o : Owner)

/-- On a repeated pass, what fails was announced before. -/
def failure (message : String) : Verdict :=
  if l.repeated then ⟨.stillUnresolved, none⟩ else ⟨.unresolved, some (.unresolvedReference, message)⟩

def doubt (message : String) : Verdict :=
  ⟨.ambiguous, if l.settings.reportAmbiguous then some (.ambiguousMember, message) else none⟩

/-- The verdict on a declaration with one signature. -/
def judge (name : String) (s : Signature) : Lookup → Verdict
  | .found _ => ⟨.resolved, none⟩
  | .ambiguous _ n => l.doubt s!"{s.text} matches {n} members, using the first"
  | .missing => l.failure s!"no member {s.text} for {name}"

/-- The parts of a property that are looked up. -/
def parts (p : PropertyDecl) : List Part :=
  (l.fieldPart? o p).toList ++ (l.getterPart? o p).toList ++ (l.setterPart? o p).toList

/-- The verdict that sums up the parts of a property. -/
def judgeProperty (p : PropertyDecl) : Verdict :=
  let missing := (l.parts o p).filterMap Part.missing?
  let ambiguous := (l.parts o p).filterMap Part.ambiguous?
  let listed := ", ".intercalate (if missing.isEmpty then ambiguous else missing)
  if p.field.isNone ∧ (p.getter.bind (·.signature)).isNone ∧ (p.setter.bind (·.signature)).isNone then
    ⟨.noSignature, none⟩
  else if (l.parts o p).isEmpty then ⟨.alreadyResolved, none⟩
  else if !missing.isEmpty then l.failure s!"property {p.name} is missing {listed}"
  else if !ambiguous.isEmpty then l.doubt s!"property {p.name}: {listed}, using the first"
  else ⟨.resolved, none⟩

/-- The verdict on a declaration of a graph of kind `root`. -/
def verdict (root : RootKind) : Linkable → Verdict
  | .constructor c =>
    if c.link.isSome then ⟨.alreadyResolved, none⟩
    else l.judge constructorName c.signature (l.pool.lookup l.settings o .method c.signature)
  | .function f =>
    if f.link.isSome then ⟨.alreadyResolved, none⟩
    else if f.signature.name = "" then ⟨.noSignature, none⟩
    else l.judge f.name f.signature (l.lookupFunction o root f)
  | .property p => l.judgeProperty o p

/-- What is reported of a declaration. -/
def reported (root : RootKind) (d : Linkable) : Report := (l.verdict o root d).report o d.kind d.name

def linkedDecl (root : RootKind) : Linkable → Linkable
  | .constructor c => .constructor (l.linkedConstructor o c)
  | .function f => .function (l.linkedFunction o root f)
  | .property p => .property (l.linkedProperty o p)

section Cases
variable {l o}

@[simp]
lemma kind_linkedDecl (root : RootKind) (d : Linkable) : (l.linkedDecl o root d).kind = d.kind := by
  cases d <;> rfl

@[simp]
lemma name_linkedDecl (root : RootKind) (d : Linkable) : (l.linkedDecl o root d).name = d.name := by
  cases d with
  | function f =>
    simp only [linkedDecl, linkedFunction, Linkable.name]
    split <;> rfl
  | _ => rfl

lemma failure_isFailure (message : String) : (l.failure message).status.IsFailure := by
  unfold failure Status.IsFailure
  split <;> simp

lemma judge_isFailure_of_missing (name : String) (s : Signature) :
    (l.judge name s .missing).status.IsFailure := failure_isFailure _

/-- The forms of a verdict: a failure, a doubt, or nothing to complain about. -/
inductive Gives (l : Linker) : Verdict → Prop
  | failure (message : String) : Gives l (l.failure message)
  | doubt (message : String) : Gives l (l.doubt message)
  | silent {status : Status} (h : ¬status.IsFailure) : Gives l ⟨status, none⟩

section
variable {P : Verdict → Prop} (failure : ∀ message, P (l.failure message))
  (doubt : ∀ message, P (l.doubt message)) (resolved : P ⟨.resolved, none⟩)
include failure doubt resolved

lemma judge_cases (name : String) (s : Signature) (found : Lookup) : P (l.judge name s found) := by
  cases found with
  | found => exact resolved
  | ambiguous => exact doubt _
  | missing => exact failure _

/-- Every verdict is a failure, a doubt, or one of three that say nothing. -/
theorem verdict_cases (alreadyResolved : P ⟨.alreadyResolved, none⟩) (noSignature : P ⟨.noSignature, none⟩)
    (root : RootKind) (d : Linkable) : P (l.verdict o root d) := by
  cases d with
  | constructor c =>
    rw [verdict]
    split
    · exact alreadyResolved
    · exact judge_cases failure doubt resolved _ _ _
  | function f =>
    rw [verdict]
    split
    · exact alreadyResolved
    · split
      · exact noSignature
      · exact judge_cases failure doubt resolved _ _ _
  | property p =>
    rw [verdict, judgeProperty]
    split
    · exact noSignature
    · split
      · exact alreadyResolved
      · split
        · exact failure _
        · split
          · exact doubt _
          · exact resolved

end

theorem verdict_gives (root : RootKind) (d : Linkable) : l.Gives (l.verdict o root d) :=
  verdict_cases .failure .doubt (.silent (by simp [Status.IsFailure]))
    (.silent (by simp [Status.IsFailure])) (.silent (by simp [Status.IsFailure])) root d

/-- A first pass calls nothing still unresolved. -/
lemma Gives.of_first {v : Verdict} (h : l.Gives v) (hfirst : l.repeated = false) :
    v.status ≠ .stillUnresolved := by
  cases h with
  | failure message => simp [Linker.failure, hfirst]
  | doubt message => simp [Linker.doubt]
  | silent hsilent => exact fun hstatus => hsilent (.inr hstatus)

/-- A repeated pass calls nothing unresolved. -/
lemma Gives.of_repeated {v : Verdict} (h : l.Gives v) (hrepeated : l.repeated = true) :
    v.status ≠ .unresolved ∧ ∀ x ∈ v.diagnostic, x.1 ≠ .unresolvedReference := by
  cases h with
  | failure message => simp [Linker.failure, hrepeated]
  | doubt message => cases hreport : l.settings.reportAmbiguous <;> simp [Linker.doubt, hreport]
  | silent hsilent => exact ⟨fun hstatus => hsilent (.inl hstatus), nofun⟩

end Cases

end Linker

/-- Whatever the report is, `r` is added to it. -/
def Appends {α : Type} (m : StateM Report α) (r : Report) : Prop := ∀ s, (m.run s).2 = s.append r

namespace Appends
variable {α β : Type} {m : StateM Report α} {f : α → StateM Report β} {r s : Report}

lemma pure (x : α) : Appends (pure x : StateM Report α) {} := fun s => (Report.append_empty s).symm

lemma bind (h : Appends m r) (hf : ∀ x, Appends (f x) s) : Appends (m >>= f) (r.append s) := by
  intro t
  change ((f (m.run t).1).run (m.run t).2).2 = _
  rw [hf, h, Report.append_assoc]

lemma silent_bind (h : Appends m {}) (hf : ∀ x, Appends (f x) s) : Appends (m >>= f) s := by
  have hs := h.bind hf
  rwa [Report.empty_append] at hs

lemma bind_silent (h : Appends m r) (hf : ∀ x, Appends (f x) {}) : Appends (m >>= f) r := by
  have hr := h.bind hf
  rwa [Report.append_empty] at hr

lemma mapM {g : α → StateM Report β} {report : α → Report} (h : ∀ a, Appends (g a) (report a))
    (as : List α) : Appends (as.mapM g) (.join (as.map report)) := by
  induction as with
  | nil => exact .pure []
  | cons a as ih =>
    rw [List.mapM_cons]
    exact (h a).bind fun b => ih.bind_silent fun bs => .pure (b :: bs)

lemma mapM_silent {g : α → StateM Report β} (h : ∀ a, Appends (g a) {}) (as : List α) :
    Appends (as.mapM g) {} := by
  have hjoin : Report.join (as.map fun _ => {}) = {} := by simp [Report.join]
  have hall := mapM h as
  rwa [hjoin] at hall

end Appends

namespace Linker
variable {l : Linker} {o : Owner}

/-- A computation gives the status of a verdict and adds its diagnostic. -/
def Pronounces (m : StateM Report Status) (o : Owner) (v : Verdict) : Prop :=
  ∀ r, m.run r = (v.status, { r with diagnostics := r.diagnostics ++ v.diagnostics o })

lemma pure_pronounces (status : Status) : Pronounces (pure status) o ⟨status, none⟩ := by
  intro r
  have hnil : r.diagnostics ++ Verdict.diagnostics ⟨status, none⟩ o = r.diagnostics := List.append_nil _
  rw [hnil]
  rfl

lemma failed_pronounces (message : String) : Pronounces (l.failed o message) o (l.failure message) := by
  unfold failed failure
  split
  · exact pure_pronounces .stillUnresolved
  · exact fun r => rfl

lemma doubtful_pronounces (message : String) : Pronounces (l.doubtful o message) o (l.doubt message) := by
  unfold doubtful doubt
  split
  · exact fun r => rfl
  · exact pure_pronounces .ambiguous

lemma status_pronounces (name : String) (s : Signature) (found : Lookup) :
    Pronounces (l.status o name s found) o (l.judge name s found) := by
  cases found with
  | found => exact pure_pronounces .resolved
  | ambiguous => exact doubtful_pronounces _
  | missing => exact failed_pronounces _

lemma propertyStatus_pronounces (p : PropertyDecl) :
    Pronounces (l.propertyStatus o p) o (l.judgeProperty o p) := by
  unfold propertyStatus judgeProperty parts
  dsimp only
  split
  · exact pure_pronounces .noSignature
  · split
    · exact pure_pronounces .alreadyResolved
    · split
      · exact failed_pronounces _
      · split
        · exact doubtful_pronounces _
        · exact pure_pronounces .resolved

lemma Pronounces.record {m : StateM Report Status} {v : Verdict} (h : Pronounces m o v) (kind : DeclKind)
    (name : String) : Appends (do record o kind name (← m)) (v.report o kind name) := by
  intro r
  change ((Linker.record o kind name (m.run r).1).run (m.run r).2).2 = _
  rw [h r]
  rfl

lemma record_appends (kind : DeclKind) (name : String) (status : Status) :
    Appends (record o kind name status) (Verdict.report ⟨status, none⟩ o kind name) :=
  (pure_pronounces status).record kind name

lemma settle_appends (kind : DeclKind) (name : String) (s : Signature) (found : Lookup) :
    Appends (l.settle o kind name s found) ((l.judge name s found).report o kind name) :=
  ((status_pronounces name s found).record kind name).bind_silent fun _ => .pure _

lemma linkConstructor_appends (root : RootKind) (c : ConstructorDecl) :
    Appends (l.linkConstructor o c) (l.reported o root (.constructor c)) := by
  unfold linkConstructor reported verdict
  by_cases h : c.link.isSome
  · simp only [h, if_true]
    exact (record_appends _ _ _).bind_silent fun _ => .pure c
  · simp only [h]
    exact (settle_appends _ _ _ _).bind_silent fun _ => .pure _

lemma linkFunction_appends (s : Scope) (f : FunctionDecl) :
    Appends (l.linkFunction o s f) (l.reported o s.root (.function f)) := by
  unfold linkFunction reported verdict
  by_cases h : f.link.isSome
  · simp only [h, if_true]
    exact (record_appends _ _ _).bind_silent fun _ => .pure f
  · by_cases hname : f.signature.name = ""
    · simp only [h, hname, if_true]
      exact (record_appends _ _ _).bind_silent fun _ => .pure f
    · simp only [h, hname, if_false]
      exact (settle_appends _ _ _ _).bind_silent fun _ => .pure _

lemma linkProperty_appends (root : RootKind) (p : PropertyDecl) :
    Appends (l.linkProperty o p) (l.reported o root (.property p)) :=
  ((propertyStatus_pronounces p).record .property p.name).bind_silent fun _ => .pure _

/-- Nothing is reported of type parameters. -/
lemma walkNode_appends {s : Scope} {k : DeclKind} {n : Node k} {r : Report}
    (h : Appends (l.visitor.offer kinds o s k n) r) : Appends (l.visitor.walkNode kinds o s k n) r :=
  h.bind_silent fun _ => (Appends.mapM_silent (fun t => .pure t) _).silent_bind fun _ => .pure _

lemma walkDeclarations_appends (s : Scope) (d : Declarations) :
    Appends (l.visitor.walkDeclarations kinds o s d) (.join (d.linkables.map (l.reported o s.root))) := by
  have hf (f : FunctionDecl) :
      Appends (l.visitor.walkNode kinds o s .function f) (l.reported o s.root (.function f)) :=
    walkNode_appends (linkFunction_appends s f)
  have hp (p : PropertyDecl) :
      Appends (l.visitor.walkNode kinds o s .property p) (l.reported o s.root (.property p)) :=
    walkNode_appends (linkProperty_appends s.root p)
  have ha (a : AliasDecl) : Appends (l.visitor.walkNode kinds o s .typeAlias a) {} :=
    walkNode_appends (.pure a)
  rw [Declarations.linkables, List.map_append, List.map_map, List.map_map, Report.join_append]
  exact (Appends.mapM hf d.functions).bind fun _ =>
    (Appends.mapM hp d.properties).bind_silent fun _ =>
      (Appends.mapM_silent ha d.aliases).silent_bind fun _ => .pure _

lemma walkBody_appends (g : Graph) : Appends (l.visitor.walkBody kinds o g.kind g.root.body)
    (.join (g.linkables.map (l.reported o g.kind))) := by
  obtain ⟨k, header, owner, body⟩ := g
  cases k with
  | classDecl =>
    have ht (t : TypeParameter) :
        Appends (l.visitor.walkNode kinds o ⟨.classDecl, none⟩ .typeParameter t) {} :=
      walkNode_appends (.pure t)
    have hc (c : ConstructorDecl) : Appends (l.visitor.walkNode kinds o ⟨.classDecl, none⟩ .constructor c)
        (l.reported o .classDecl (.constructor c)) :=
      walkNode_appends (linkConstructor_appends _ c)
    rw [Graph.linkables, List.map_append, List.map_map, Report.join_append]
    exact (Appends.mapM_silent ht _).silent_bind fun _ => (Appends.mapM hc _).bind fun _ =>
      (walkDeclarations_appends _ _).bind_silent fun _ => .pure _
  | fileFacade => exact walkDeclarations_appends _ body
  | syntheticClass =>
    have hf (f : FunctionDecl) : Appends (l.visitor.walkNode kinds o ⟨.syntheticClass, none⟩ .function f)
        (l.reported o .syntheticClass (.function f)) := walkNode_appends (linkFunction_appends _ f)
    cases body with
    | none => exact .pure none
    | some f =>
      have hall : Report.join [l.reported o .syntheticClass (.function f)] =
          l.reported o .syntheticClass (.function f) := Report.append_empty _
      exact hall ▸ (hf f).bind_silent fun f => .pure (some f)
  | multiFileFacade => exact .pure body
  | multiFilePart => exact (walkDeclarations_appends _ _).bind_silent fun _ => .pure _

/-- The report on a graph is made up of the reports on its declarations. -/
theorem link_snd {id : Nat} {c : CompiledClass} (hc : l.pool.class? id = some c) (g : Graph) :
    (l.link id g).2 = .join (g.linkables.map (l.reported c.toOwner g.kind)) := by
  have hroot : Appends ((RootVisitor.ofDeclarations kinds l.visitor).specific g.kind c.toOwner g.root)
      (.join (g.linkables.map (l.reported c.toOwner g.kind))) :=
    (walkBody_appends g).bind_silent fun _ => .pure _
  have hgraph : Appends (g.accept (.ofDeclarations kinds l.visitor) c.toOwner)
      (.join (g.linkables.map (l.reported c.toOwner g.kind))) := hroot.bind_silent fun _ => .pure _
  rw [link, hc]
  exact (hgraph {}).trans (Report.empty_append _)

lemma outcomes_reported (root : RootKind) (ds : List Linkable) :
    (Report.join (ds.map (l.reported o root))).outcomes =
      ds.map fun d => (l.verdict o root d).outcome o d.kind d.name := by
  simp only [Report.join, List.flatMap_map]
  exact List.map_eq_flatMap.symm

lemma diagnostics_reported (root : RootKind) (ds : List Linkable) :
    (Report.join (ds.map (l.reported o root))).diagnostics =
      ds.flatMap fun d => (l.verdict o root d).diagnostics o := by
  simp only [Report.join, List.flatMap_map]
  rfl

section Congr
variable {m : Linker} (hlookup : l.pool.lookup l.settings o = m.pool.lookup m.settings o)
  (hfunction : l.lookupFunction o = m.lookupFunction o)
include hlookup hfunction

/-- The links that are made depend only on what is found. -/
lemma linked_congr : l.linked o = m.linked o := by
  unfold linked linkedBody linkedDeclarations linkedProperty linkedAccessor linkedConstructor linkedFunction resolve
  rw [hlookup, hfunction]

/-- What is reported depends on what is found, and on what the pass is to say. -/
lemma reported_congr (hrepeated : l.repeated = m.repeated)
    (hreport : l.settings.reportAmbiguous = m.settings.reportAmbiguous) : l.reported o = m.reported o := by
  unfold reported verdict judgeProperty parts fieldPart? getterPart? setterPart? part? judge failure doubt
  rw [hlookup, hfunction, hrepeated, hreport]

/-- Two passes over a class do the same where they find the same and are to say the same. -/
lemma link_congr {id : Nat} {c d : CompiledClass} (hc : l.pool.class? id = some c) (hd : m.pool.class? id = some d)
    (howner : c.toOwner = o) (howner' : d.toOwner = o) (hrepeated : l.repeated = m.repeated)
    (hreport : l.settings.reportAmbiguous = m.settings.reportAmbiguous) (g : Graph) : l.link id g = m.link id g := by
  apply Prod.ext
  · rw [link_fst hc, link_fst hd, howner, howner', linked_congr hlookup hfunction]
  · rw [link_snd hc, link_snd hd, howner, howner', reported_congr hlookup hfunction hrepeated hreport]

end Congr

/-- Linking keeps the order of the declarations. -/
lemma linkables_linked (g : Graph) :
    (l.linked o g).linkables = g.linkables.map (l.linkedDecl o g.kind) := by
  obtain ⟨k, header, owner, body⟩ := g
  have hdeclarations (root : RootKind) (d : Declarations) :
      (l.linkedDeclarations o root d).linkables = d.linkables.map (l.linkedDecl o root) := by
    simp only [Declarations.linkables, linkedDeclarations, List.map_append, List.map_map]
    rfl
  cases k with
  | classDecl =>
    simp only [linked, linkedBody, Graph.linkables, List.map_append, List.map_map, hdeclarations]
    rfl
  | fileFacade => exact hdeclarations _ body
  | syntheticClass => cases body <;> rfl
  | multiFileFacade => rfl
  | multiFilePart => exact hdeclarations _ _

end Linker
end DeclGraph

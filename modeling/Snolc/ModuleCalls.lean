import Snolc.ModuleLifecycle

set_option autoImplicit false

namespace Snolc.ModuleLifecycle
open PollIo CoreIo

structure Direct (M : Type) where
  module : M
  created : ℕ
  modules : List (Option LoadedModule)
  answers : List Answer

def seenLoad : Outcome (Except (List UInt8) Unit) → Except LoadError Unit
  | .returned (.ok ()) => .ok ()
  | .returned (.error message) =>
    if message.length ≤ maxConfigError then .error (.config statusInvalid message) else .error .outputLength
  | .panicked => .error (.config statusInternal [])

def seenCreate : Outcome (Except UInt32 Unit) → Except LoadError Unit
  | .returned (.ok ()) => .ok ()
  | .returned (.error status) =>
    if status = statusOk then .error .invalidHandle else .error (.moduleStatus status)
  | .panicked => .error (.moduleStatus statusInternal)

def seenPoll : Outcome UInt32 → Except LoadError Unit
  | .returned status =>
    if status = statusOk ∨ status = statusPending then .ok () else .error (.moduleStatus status)
  | .panicked => .error (.moduleStatus statusInternal)

/-- A response that is too long for the buffer of the core is no response. A refusal with the status of success is an
empty response. -/
def seenControl (maxResponse : ℕ) : Outcome (Except UInt32 (List UInt8)) → Poll (Except LoadError (List UInt8))
  | .returned (.ok output) =>
    if output.length ≤ maxResponse then .ready (.ok output) else .ready (.error (.moduleStatus statusResource))
  | .returned (.error status) =>
    if status = statusUnsupported then .ready (.error .unsupported)
    else if status = statusPending then .pending
    else if status = statusOk then .ready (.ok [])
    else .ready (.error (.moduleStatus status))
  | .panicked => .ready (.error (.moduleStatus statusInternal))

def seenShutdown : Outcome UInt32 → Poll (Except LoadError Unit)
  | .returned status =>
    if status = statusOk then .ready (.ok ())
    else if status = statusPending then .pending
    else .ready (.error (.moduleStatus status))
  | .panicked => .ready (.error (.moduleStatus statusInternal))

namespace Direct
variable {M : Type} (c : Callbacks M)

def new (module : M) : Direct M := ⟨module, 0, [], []⟩

def at? (v : Direct M) (place : ℕ) : Option LoadedModule := v.modules[place]?.join

def answered (v : Direct M) (module : M) (answer : Answer) : Direct M :=
  { v with module := module, answers := v.answers ++ [answer] }

def through {α : Type} (v : Direct M) (place : ℕ) (wrap : α → Answer) (absent : α)
    (call : UInt64 → M → α × M) : Option (Direct M) :=
  (v.at? place).map fun m =>
    match m.instance? with
    | none => v.answered v.module (wrap absent)
    | some handle => v.answered (call handle v.module).2 (wrap (call handle v.module).1)

def step (v : Direct M) : Move → Option (Direct M)
  | .load config base =>
    match seenLoad (c.validate config base) with
    | .ok () =>
      some { v with modules := v.modules ++ [some ⟨config, base, none⟩], answers := v.answers ++ [.loaded none] }
    | .error error => some (v.answered v.module (.loaded (some error)))
  | .create place =>
    (v.at? place).map fun m =>
      match m.instance? with
      | some _ => v.answered v.module (.created (.error .alreadyCreated))
      | none =>
        let handle := UInt64.ofNat (v.created + 1)
        let r := c.initialise handle m.config m.baseDirectory v.module
        let next := match seenCreate r.1 with
          | .ok () => { m with instance? := some handle }
          | .error _ => m
        { v with module := r.2, created := v.created + 1, modules := v.modules.set place (some next)
                 answers := v.answers ++ [.created (seenCreate r.1)] }
  | .poll place =>
    v.through place .polled (.error .notCreated) fun handle m => (seenPoll (c.poll handle m).1, (c.poll handle m).2)
  | .control place request maxResponse =>
    v.through place .controlled (.ready (.error .notCreated)) fun handle m =>
      (seenControl maxResponse (c.control handle request m).1, (c.control handle request m).2)
  | .shutdown place =>
    v.through place .stopped (.ready (.ok ())) fun handle m =>
      (seenShutdown (c.shutdown handle m).1, (c.shutdown handle m).2)
  | .drop place =>
    (v.at? place).map fun m =>
      { v with modules := v.modules.set place none, answers := v.answers ++ [.dropped]
               module := match m.instance? with
                 | none => v.module
                 | some handle => (c.destroy handle v.module).2 }

def run (v : Direct M) (moves : List Move) : Option (Direct M) := moves.foldlM (step c) v

end Direct

theorem take_buffer (capacity : ℕ) (copied : List UInt8) : (buffer capacity copied).take copied.length = copied := by
  rw [buffer, List.take_left]

theorem length_buffer {capacity : ℕ} {copied : List UInt8} (h : copied.length ≤ capacity) :
    (buffer capacity copied).length = capacity := by
  rw [buffer, List.length_append, List.length_replicate]
  omega

section Calls
variable {M : Type} {c : Callbacks M} {l : Library M} {held : UInt64 → Prop}

theorem load_seen (config base : List UInt8) :
    LoadedModule.load c config base = (seenLoad (c.validate config base)).map fun _ => ⟨config, base, none⟩ := by
  unfold LoadedModule.load Library.ffiValidateConfig
  cases c.validate config base with
  | returned value =>
    cases value with
    | ok => rfl
    | error message =>
      unfold seenLoad
      dsimp only
      rw [if_neg (show statusInvalid ≠ statusOk by decide)]
      by_cases hfits : message.length ≤ maxConfigError
      · have hwrite : Library.writeOutput message maxConfigError = (statusOk, message.length, message) :=
          if_neg (by omega)
        rw [if_pos hfits, hwrite, if_neg (by dsimp only; omega), take_buffer]
        rfl
      · have hwrite : Library.writeOutput message maxConfigError = (statusResource, message.length, []) :=
          if_pos (by omega)
        rw [if_neg hfits, hwrite, if_pos (by dsimp only; omega)]
        rfl
  | panicked => rfl

theorem seenPoll_eq (outcome : Outcome UInt32) : seenPoll outcome =
    if catchStatus outcome = statusOk ∨ catchStatus outcome = statusPending then .ok ()
    else .error (.moduleStatus (catchStatus outcome)) := by
  cases outcome <;> rfl

theorem seenShutdown_eq (outcome : Outcome UInt32) : seenShutdown outcome =
    if catchStatus outcome = statusOk then .ready (.ok ())
    else if catchStatus outcome = statusPending then .pending
    else .ready (.error (.moduleStatus (catchStatus outcome))) := by
  cases outcome <;> rfl

theorem poll_seen (h : Kept l held) {handle : UInt64} (hheld : held handle) {m : LoadedModule}
    (hinstance : m.instance? = some handle) :
    (m.poll c l).1 = seenPoll (c.poll handle l.module).1 ∧ (m.poll c l).2.module = (c.poll handle l.module).2 := by
  unfold LoadedModule.poll
  rw [hinstance, seenPoll_eq]
  unfold Library.ffiPoll
  simp only [if_pos (h.contains hheld)]
  by_cases hgoes : catchStatus (c.poll handle l.module).1 = statusOk ∨
      catchStatus (c.poll handle l.module).1 = statusPending
  · simp only [if_pos hgoes, Library.called, and_self]
  · simp only [if_neg hgoes, Library.called, and_self]

theorem shutdown_seen (h : Kept l held) {handle : UInt64} (hheld : held handle) {m : LoadedModule}
    (hinstance : m.instance? = some handle) :
    (m.pollShutdown c l).1 = seenShutdown (c.shutdown handle l.module).1 ∧
      (m.pollShutdown c l).2.module = (c.shutdown handle l.module).2 := by
  unfold LoadedModule.pollShutdown
  rw [hinstance, seenShutdown_eq]
  unfold Library.ffiShutdown
  simp only [if_pos (h.contains hheld)]
  by_cases hok : catchStatus (c.shutdown handle l.module).1 = statusOk
  · simp only [if_pos hok, Library.called, and_self]
  · by_cases hpending : catchStatus (c.shutdown handle l.module).1 = statusPending
    · simp only [if_neg hok, if_pos hpending, Library.called, and_self]
    · simp only [if_neg hok, if_neg hpending, Library.called, and_self]

theorem control_seen (h : Kept l held) {handle : UInt64} (hheld : held handle) {m : LoadedModule}
    (hinstance : m.instance? = some handle) (request : List UInt8) (maxResponse : ℕ) :
    (m.pollControl c request maxResponse l).1 = seenControl maxResponse (c.control handle request l.module).1 ∧
      (m.pollControl c request maxResponse l).2.module = (c.control handle request l.module).2 := by
  unfold LoadedModule.pollControl
  rw [hinstance]
  unfold Library.ffiControl
  dsimp only
  rw [if_pos (h.contains hheld)]
  cases (c.control handle request l.module).1 with
  | returned value =>
    cases value with
    | ok output =>
      unfold seenControl
      dsimp only
      by_cases hfits : output.length ≤ maxResponse
      · have hwrite : Library.writeOutput output maxResponse = (statusOk, output.length, output) :=
          if_neg (by omega)
        have hcheck : checkOutput statusOk (buffer maxResponse output) output.length maxResponse = .ok output := by
          unfold checkOutput
          rw [if_neg (not_not_intro rfl), length_buffer hfits, if_neg (by omega), take_buffer]
        simp only [hwrite, if_pos hfits, if_neg (show statusOk ≠ statusUnsupported by decide),
          if_neg (show statusOk ≠ statusPending by decide), hcheck, Library.called, and_self]
      · have hwrite : Library.writeOutput output maxResponse = (statusResource, output.length, []) :=
          if_pos (by omega)
        simp only [hwrite, if_neg hfits]
        exact ⟨rfl, rfl⟩
    | error status =>
      unfold seenControl
      dsimp only
      by_cases hunsupported : status = statusUnsupported
      · simp only [if_pos hunsupported, Library.called, and_self]
      · by_cases hpending : status = statusPending
        · simp only [if_neg hunsupported, if_pos hpending, Library.called, and_self]
        · by_cases hok : status = statusOk
          · have hcheck : checkOutput status (buffer maxResponse []) 0 maxResponse = .ok [] := by
              simp [checkOutput, hok]
            simp only [if_neg hunsupported, if_neg hpending, if_pos hok, hcheck, Library.called, and_self]
          · have hcheck : checkOutput status (buffer maxResponse []) 0 maxResponse = .error (.moduleStatus status) :=
              if_pos hok
            simp only [if_neg hunsupported, if_neg hpending, if_neg hok, hcheck, Library.called, and_self]
  | panicked => exact ⟨rfl, rfl⟩

theorem create_counts {m : LoadedModule} (hinstance : m.instance? = none) :
    (m.create c l).2.2.created = l.created + 1 := by
  have hcreated := ffiCreate_created (c := c) m.config m.baseDirectory l
  unfold LoadedModule.create
  simp only [hinstance]
  split_ifs <;> exact hcreated

theorem create_seen (h : Kept l held) {m : LoadedModule} (hinstance : m.instance? = none)
    (hcount : l.created + 1 < 2 ^ 64) :
    let handle := UInt64.ofNat (l.created + 1)
    let r := c.initialise handle m.config m.baseDirectory l.module
    (m.create c l).1 = seenCreate r.1 ∧ (m.create c l).2.2.module = r.2 ∧
      (m.create c l).2.1 = match seenCreate r.1 with
        | .ok () => { m with instance? := some handle }
        | .error _ => m := by
  have hnext : l.instances.next.toNat = l.created + 1 := by rw [h.next, Nat.mod_eq_of_lt hcount]
  have hhandle : UInt64.ofNat (l.created + 1) = l.instances.next := by rw [← hnext, UInt64.ofNat_toNat]
  have hne : l.instances.next ≠ 0 := fun hzero => by simp [hzero] at hnext
  dsimp only
  rw [hhandle]
  unfold LoadedModule.create Library.ffiCreate Instances.create
  simp only [hinstance, if_neg hne]
  cases (c.initialise l.instances.next m.config m.baseDirectory l.module).1 with
  | returned value =>
    cases value with
    | ok => simp [seenCreate, hne, Library.called]
    | error status =>
      unfold seenCreate
      by_cases hok : status = statusOk
      · simp [hok, Library.called]
      · simp [hok, Library.called]
  | panicked => simp [seenCreate, Library.called, statusInternal, statusOk]

end Calls

theorem set_same {α : Type} {xs : List (Option α)} {place : ℕ} {x : α} (h : xs[place]?.join = some x) :
    xs.set place (some x) = xs := by
  apply List.ext_getElem?
  intro other
  rw [List.getElem?_set]
  split
  · rename_i heq
    subst heq
    have hsome := Option.join_eq_some_iff.mp h
    split
    · exact hsome.symm
    · rename_i hge
      rw [List.getElem?_eq_none (by omega)] at hsome
      cases hsome
  · rfl

/-- The two have the same modules in the same state, and gave the same answers. -/
structure Matches {M : Type} (w : World M) (v : Direct M) : Prop where
  module : w.library.module = v.module
  created : w.library.created = v.created
  modules : w.modules = v.modules
  answers : w.answers = v.answers

section Steps
variable {M : Type} {c : Callbacks M} {w next : World M} {v : Direct M}

theorem Matches.at? (h : Matches w v) (place : ℕ) : w.at? place = v.at? place := by
  unfold World.at? Direct.at?
  rw [h.modules]

theorem Matches.answered (h : Matches w v) {library : Library M} {module : M} (hmodule : library.module = module)
    (hcreated : library.created = w.library.created) (answer : Answer) :
    Matches (w.answered library answer) (v.answered module answer) where
  module := hmodule
  created := hcreated.trans h.created
  modules := h.modules
  answers := congrArg (· ++ [answer]) h.answers

theorem Matches.through (h : Matches w v) (hsound : w.Sound) {α : Type} {place : ℕ} {m : LoadedModule}
    (hat : w.at? place = some m) (wrap : α → Answer) (absent : α) (call : UInt64 → M → α × M) {r : α × Library M}
    (hnone : m.instance? = none → r = (absent, w.library)) (hcreated : r.2.created = w.library.created)
    (hsome : ∀ handle, m.instance? = some handle →
      Kept w.library (fun x => ∃ place, w.Holds place x) → (∃ place, w.Holds place handle) →
        r.1 = (call handle w.library.module).1 ∧ r.2.module = (call handle w.library.module).2) :
    ∃ next, v.through place wrap absent call = some next ∧ Matches (w.answered r.2 (wrap r.1)) next := by
  unfold Direct.through
  rw [← h.at?, hat]
  refine ⟨_, rfl, ?_⟩
  cases hinstance : m.instance? with
  | none =>
    simp only [hinstance, hnone hinstance]
    exact h.answered h.module rfl _
  | some handle =>
    obtain ⟨hanswer, hmodule⟩ := hsome handle hinstance hsound.kept ⟨place, m, hat, hinstance⟩
    simp only [hinstance, hanswer, ← h.module]
    exact h.answered hmodule hcreated _

theorem Matches.load (h : Matches w v) {config base : List UInt8}
    (hnext : World.step c w (.load config base) = some next) :
    ∃ v', Direct.step c v (.load config base) = some v' ∧ Matches next v' := by
  rw [World.step, load_seen] at hnext
  rw [Direct.step]
  cases hseen : seenLoad (c.validate config base) with
  | ok =>
    rw [hseen] at hnext
    cases hnext
    exact ⟨_, rfl, h.module, h.created, congrArg (· ++ _) h.modules, congrArg (· ++ _) h.answers⟩
  | error error =>
    rw [hseen] at hnext
    cases hnext
    exact ⟨_, rfl, h.answered h.module rfl _⟩

theorem Matches.create (h : Matches w v) (hsound : w.Sound) {place : ℕ}
    (hnext : World.step c w (.create place) = some next) (hcount : next.library.created < 2 ^ 64) :
    ∃ v', Direct.step c v (.create place) = some v' ∧ Matches next v' := by
  obtain ⟨m, hat, rfl⟩ := Option.map_eq_some_iff.mp hnext
  rw [Direct.step, ← h.at?, hat]
  refine ⟨_, rfl, ?_⟩
  cases hinstance : m.instance? with
  | some held =>
    have hset : w.modules.set place (some m) = w.modules := set_same hat
    simp only [LoadedModule.create, hinstance, hset]
    exact h.answered h.module rfl _
  | none =>
    obtain ⟨hresult, hmodule, hplace⟩ := create_seen (c := c) hsound.kept hinstance
      (by rw [← create_counts (c := c) hinstance]; exact hcount)
    simp only [hinstance, ← h.module, ← h.created]
    refine ⟨hmodule, create_counts hinstance, ?_, ?_⟩
    · rw [hplace, h.modules]
    · rw [hresult]
      exact congrArg (· ++ _) h.answers

theorem Matches.step (h : Matches w v) (hsound : w.Sound) {move : Move} (hnext : World.step c w move = some next)
    (hcount : next.library.created < 2 ^ 64) : ∃ v', Direct.step c v move = some v' ∧ Matches next v' := by
  cases move with
  | load config base => exact h.load hnext
  | create place => exact h.create hsound hnext hcount
  | poll place =>
    obtain ⟨m, hat, rfl⟩ := Option.map_eq_some_iff.mp hnext
    refine h.through hsound hat .polled (.error .notCreated)
      (fun handle m => (seenPoll (c.poll handle m).1, (c.poll handle m).2)) (fun hnone => ?_) poll_created
      fun handle hinstance hkept hheld => poll_seen hkept hheld hinstance
    rw [LoadedModule.poll, hnone]
  | control place request maxResponse =>
    obtain ⟨m, hat, rfl⟩ := Option.map_eq_some_iff.mp hnext
    refine h.through hsound hat .controlled (.ready (.error .notCreated))
      (fun handle m => (seenControl maxResponse (c.control handle request m).1, (c.control handle request m).2))
      (fun hnone => ?_)
      (pollControl_created request maxResponse)
      fun handle hinstance hkept hheld => control_seen hkept hheld hinstance request maxResponse
    rw [LoadedModule.pollControl, hnone]
  | shutdown place =>
    obtain ⟨m, hat, rfl⟩ := Option.map_eq_some_iff.mp hnext
    refine h.through hsound hat .stopped (.ready (.ok ()))
      (fun handle m => (seenShutdown (c.shutdown handle m).1, (c.shutdown handle m).2)) (fun hnone => ?_)
      pollShutdown_created
      fun handle hinstance hkept hheld => shutdown_seen hkept hheld hinstance
    rw [LoadedModule.pollShutdown, hnone]
  | drop place =>
    obtain ⟨m, hat, rfl⟩ := Option.map_eq_some_iff.mp hnext
    rw [Direct.step, ← h.at?, hat]
    refine ⟨_, rfl, ?_, drop_created.trans h.created, congrArg (List.set · place none) h.modules,
      congrArg (· ++ _) h.answers⟩
    unfold LoadedModule.drop
    cases hinstance : m.instance? with
    | none =>
      simp only [hinstance]
      exact h.module
    | some handle =>
      simp only [hinstance, ← h.module]
      unfold Library.ffiDestroy
      dsimp only
      split <;> rfl

theorem Matches.run (h : Matches w v) (hsound : w.Sound) {moves : List Move}
    (hrun : World.run c w moves = some next) (hcount : next.library.created < 2 ^ 64) :
    ∃ v', Direct.run c v moves = some v' ∧ Matches next v' := by
  induction moves generalizing w v with
  | nil =>
    cases hrun
    exact ⟨v, rfl, h⟩
  | cons move moves ih =>
    rw [World.run, List.foldlM_cons] at hrun
    obtain ⟨middle, hfirst, hrest⟩ := Option.bind_eq_some_iff.mp hrun
    have hbound := Nat.lt_of_le_of_lt (World.run_created hrest) hcount
    obtain ⟨v₁, h1, hmatches⟩ := h.step hsound hfirst hbound
    obtain ⟨v₂, h2, hend⟩ := ih hmatches (hsound.step hfirst hbound) hrest
    refine ⟨v₂, ?_, hend⟩
    rw [Direct.run, List.foldlM_cons, h1]
    exact h2

end Steps

/-- In every run the core gets the answers it would get from direct calls of the module's functions, and the modules
end in the same state: handles are never stale, no answer is cut or padded on its way through a buffer, and a panic is
seen as the internal status. -/
theorem module_transparency {M : Type} (c : Callbacks M) (module : M) {moves : List Move} {w : World M}
    (hrun : World.run c (World.new module) moves = some w) (hcount : w.library.created < 2 ^ 64) :
    ∃ v, Direct.run c (Direct.new module) moves = some v ∧ v.answers = w.answers ∧ v.module = w.library.module := by
  obtain ⟨v, hv, hmatches⟩ :=
    Matches.run (v := Direct.new module) ⟨rfl, rfl, rfl, rfl⟩ (World.new_sound module) hrun hcount
  exact ⟨v, hv, hmatches.answers.symm, hmatches.module.symm⟩

def fragileMoves : List Move := [.load [] [], .create 0, .control 0 [1, 2] 2, .control 0 [1, 2] 1]

theorem fragile_transparency :
    ∃ w v, World.run fragile (World.new ()) fragileMoves = some w ∧
      Direct.run fragile (Direct.new ()) fragileMoves = some v ∧
      v.answers = w.answers ∧ w.answers = [.loaded none, .created (.ok ()), .controlled (.ready (.ok [1, 2])),
        .controlled (.ready (.error (.moduleStatus statusResource)))] := by
  obtain ⟨w, hrun, hcount, hanswers⟩ : ∃ w, World.run fragile (World.new ()) fragileMoves = some w ∧
      w.library.created < 2 ^ 64 ∧
      w.answers = [.loaded none, .created (.ok ()), .controlled (.ready (.ok [1, 2])),
        .controlled (.ready (.error (.moduleStatus statusResource)))] := ⟨_, rfl, by decide, rfl⟩
  obtain ⟨v, hv, hsame, -⟩ := module_transparency fragile () hrun hcount
  exact ⟨w, v, hrun, hv, hsame, hanswers⟩

end Snolc.ModuleLifecycle

import Snolc.LossyQueue
import Snolc.ModuleIo
import Snolc.PartialPosts

set_option autoImplicit false

/-!
# The life of a module instance

The core loads a module library, possibly for several of its modules, and calls it by the
handle it was given. The library looks the handle up in its own set, calls the function
the module was declared with and turns a panic of it into a status. What a module keeps
and what its functions do is a parameter. As everywhere at this interface, null pointers
do not arise: a buffer is a list.
-/
namespace Snolc.ModuleLifecycle
open PollIo CoreIo LossyQueue PartialPosts

/-! ## The library -/

inductive Outcome (α : Type) where
  | returned (value : α)
  | panicked
  deriving DecidableEq, Repr

/-- The functions a module is declared with. -/
structure Callbacks (M : Type) where
  validate : List UInt8 → List UInt8 → Outcome (Except (List UInt8) Unit)
  initialise : UInt64 → List UInt8 → List UInt8 → M → Outcome (Except UInt32 Unit) × M
  poll : UInt64 → M → Outcome UInt32 × M
  control : UInt64 → List UInt8 → M → Outcome (Except UInt32 (List UInt8)) × M
  shutdown : UInt64 → M → Outcome UInt32 × M
  destroy : UInt64 → M → Outcome Unit × M

def statusOk : UInt32 := 0
def statusUnsupported : UInt32 := 1
def statusInvalid : UInt32 := 2
def statusResource : UInt32 := 3
def statusInternal : UInt32 := 5
def statusPending : UInt32 := 6

def catchStatus : Outcome UInt32 → UInt32
  | .returned status => status
  | .panicked => statusInternal

structure Instances where
  next : UInt64
  active : List UInt64
  deriving DecidableEq, Repr

namespace Instances

def new : Instances := ⟨1, []⟩

def create (i : Instances) : Except UInt32 UInt64 × Instances :=
  let handle := i.next
  if handle = 0 then (.error statusResource, { i with next := i.next + 1 })
  else
    (.ok handle, { next := i.next + 1, active := if handle ∈ i.active then i.active else handle :: i.active })

def contains (i : Instances) (handle : UInt64) : Bool := handle != 0 && i.active.contains handle

def remove (i : Instances) (handle : UInt64) : Instances :=
  { i with active := i.active.filter fun other => decide (other ≠ handle) }

end Instances

/-- A function of the module that was called, and for the first and the last one what became of it. -/
inductive Call where
  | initialise (outcome : Outcome (Except UInt32 Unit))
  | poll
  | control (request : List UInt8)
  | shutdown
  | destroy (outcome : Outcome Unit)
  deriving DecidableEq, Repr

/-- A loaded library, with the calls of the module's functions so far and the number of calls of `Instances::create`. -/
structure Library (M : Type) where
  instances : Instances
  module : M
  calls : List (UInt64 × Call)
  created : ℕ

namespace Library
variable {M : Type} (c : Callbacks M)

def called (l : Library M) (handle : UInt64) (call : Call) (module : M) : Library M :=
  { l with module := module, calls := l.calls ++ [(handle, call)] }

def writeOutput (data : List UInt8) (capacity : ℕ) : UInt32 × ℕ × List UInt8 :=
  if capacity < data.length then (statusResource, data.length, []) else (statusOk, data.length, data)

def ffiValidateConfig (config base : List UInt8) (capacity : ℕ) : UInt32 × ℕ × List UInt8 :=
  match c.validate config base with
  | .returned (.ok ()) => writeOutput [] capacity
  | .returned (.error message) => (statusInvalid, (writeOutput message capacity).2)
  | .panicked => (statusInternal, 0, [])

def ffiCreate (config base : List UInt8) (l : Library M) : UInt32 × UInt64 × Library M :=
  let r := l.instances.create
  let l := { l with instances := r.2, created := l.created + 1 }
  match r.1 with
  | .error status => (status, 0, l)
  | .ok handle =>
    let r := c.initialise handle config base l.module
    let l := l.called handle (.initialise r.1) r.2
    match r.1 with
    | .returned (.ok ()) => (statusOk, handle, l)
    | .returned (.error status) => (status, 0, { l with instances := l.instances.remove handle })
    | .panicked => (statusInternal, 0, l)

def ffiPoll (handle : UInt64) (l : Library M) : UInt32 × Library M :=
  if l.instances.contains handle then
    let r := c.poll handle l.module
    (catchStatus r.1, l.called handle .poll r.2)
  else (statusInvalid, l)

def ffiControl (handle : UInt64) (request : List UInt8) (capacity : ℕ) (l : Library M) :
    (UInt32 × ℕ × List UInt8) × Library M :=
  if l.instances.contains handle then
    let r := c.control handle request l.module
    let l := l.called handle (.control request) r.2
    match r.1 with
    | .returned (.ok output) => (writeOutput output capacity, l)
    | .returned (.error status) => ((status, 0, []), l)
    | .panicked => ((statusInternal, 0, []), l)
  else ((statusInvalid, 0, []), l)

def ffiShutdown (handle : UInt64) (l : Library M) : UInt32 × Library M :=
  if l.instances.contains handle then
    let r := c.shutdown handle l.module
    (catchStatus r.1, l.called handle .shutdown r.2)
  else (statusInvalid, l)

def ffiDestroy (handle : UInt64) (l : Library M) : Library M :=
  let r := c.destroy handle l.module
  let l := l.called handle (.destroy r.1) r.2
  match r.1 with
  | .returned () => { l with instances := l.instances.remove handle }
  | .panicked => l

end Library

/-! ## The core -/

inductive LoadError where
  | config (status : UInt32) (message : List UInt8)
  | moduleStatus (status : UInt32)
  | outputLength
  | alreadyCreated
  | notCreated
  | invalidHandle
  | unsupported
  deriving DecidableEq, Repr

structure LoadedModule where
  config : List UInt8
  baseDirectory : List UInt8
  instance? : Option UInt64
  deriving DecidableEq, Repr

def maxConfigError : ℕ := 4096

def buffer (capacity : ℕ) (copied : List UInt8) : List UInt8 := copied ++ List.replicate (capacity - copied.length) 0

def checkOutput (status : UInt32) (output : List UInt8) (written limit : ℕ) : Except LoadError (List UInt8) :=
  if status ≠ statusOk then .error (.moduleStatus status)
  else if output.length < written ∨ limit < written then .error .outputLength
  else .ok (output.take written)

namespace LoadedModule
variable {M : Type} (c : Callbacks M)

/-- The end of `LoadedModule::load`. The message of an error are the bytes that make its text. -/
def load (config base : List UInt8) : Except LoadError LoadedModule :=
  let (status, written, copied) := Library.ffiValidateConfig c config base maxConfigError
  if status = statusOk then .ok ⟨config, base, none⟩
  else if maxConfigError < written then .error .outputLength
  else .error (.config status ((buffer maxConfigError copied).take written))

def create (m : LoadedModule) (l : Library M) : Except LoadError Unit × LoadedModule × Library M :=
  match m.instance? with
  | some _ => (.error .alreadyCreated, m, l)
  | none =>
    let (status, handle, l) := Library.ffiCreate c m.config m.baseDirectory l
    if status ≠ statusOk then (.error (.moduleStatus status), m, l)
    else if handle = 0 then (.error .invalidHandle, m, l)
    else (.ok (), { m with instance? := some handle }, l)

def poll (m : LoadedModule) (l : Library M) : Except LoadError Unit × Library M :=
  match m.instance? with
  | none => (.error .notCreated, l)
  | some handle =>
    let (status, l) := Library.ffiPoll c handle l
    if status = statusOk ∨ status = statusPending then (.ok (), l) else (.error (.moduleStatus status), l)

def pollControl (m : LoadedModule) (request : List UInt8) (maxResponse : ℕ) (l : Library M) :
    Poll (Except LoadError (List UInt8)) × Library M :=
  match m.instance? with
  | none => (.ready (.error .notCreated), l)
  | some handle =>
    let ((status, written, copied), l) := Library.ffiControl c handle request maxResponse l
    if status = statusUnsupported then (.ready (.error .unsupported), l)
    else if status = statusPending then (.pending, l)
    else (.ready (checkOutput status (buffer maxResponse copied) written maxResponse), l)

def pollShutdown (m : LoadedModule) (l : Library M) : Poll (Except LoadError Unit) × Library M :=
  match m.instance? with
  | none => (.ready (.ok ()), l)
  | some handle =>
    let (status, l) := Library.ffiShutdown c handle l
    if status = statusOk then (.ready (.ok ()), l)
    else if status = statusPending then (.pending, l)
    else (.ready (.error (.moduleStatus status)), l)

def drop (m : LoadedModule) (l : Library M) : Library M :=
  match m.instance? with
  | some handle => Library.ffiDestroy c handle l
  | none => l

end LoadedModule

/-! ## Runs -/

inductive Answer where
  | loaded (error : Option LoadError)
  | created (result : Except LoadError Unit)
  | polled (result : Except LoadError Unit)
  | controlled (result : Poll (Except LoadError (List UInt8)))
  | stopped (result : Poll (Except LoadError Unit))
  | dropped

/-- A library and the modules that were loaded from it. A module that was dropped leaves its place empty. -/
structure World (M : Type) where
  library : Library M
  modules : List (Option LoadedModule)
  answers : List Answer

def World.new {M : Type} (module : M) : World M := ⟨⟨.new, module, [], 0⟩, [], []⟩

/-- A call of the core. Modules are named by their place. -/
inductive Move where
  | load (config base : List UInt8)
  | create (place : ℕ)
  | poll (place : ℕ)
  | control (place : ℕ) (request : List UInt8) (maxResponse : ℕ)
  | shutdown (place : ℕ)
  | drop (place : ℕ)
  deriving DecidableEq, Repr

namespace World
variable {M : Type} (c : Callbacks M)

def at? (w : World M) (place : ℕ) : Option LoadedModule := w.modules[place]?.join

def answered (w : World M) (library : Library M) (answer : Answer) : World M :=
  { w with library := library, answers := w.answers ++ [answer] }

def step (w : World M) : Move → Option (World M)
  | .load config base =>
    match LoadedModule.load c config base with
    | .ok module =>
      some { w with modules := w.modules ++ [some module], answers := w.answers ++ [.loaded none] }
    | .error error => some (w.answered w.library (.loaded (some error)))
  | .create place =>
    (w.at? place).map fun module =>
      let r := module.create c w.library
      { w.answered r.2.2 (.created r.1) with modules := w.modules.set place (some r.2.1) }
  | .poll place =>
    (w.at? place).map fun module =>
      let r := module.poll c w.library
      w.answered r.2 (.polled r.1)
  | .control place request maxResponse =>
    (w.at? place).map fun module =>
      let r := module.pollControl c request maxResponse w.library
      w.answered r.2 (.controlled r.1)
  | .shutdown place =>
    (w.at? place).map fun module =>
      let r := module.pollShutdown c w.library
      w.answered r.2 (.stopped r.1)
  | .drop place =>
    (w.at? place).map fun module =>
      { w.answered (module.drop c w.library) .dropped with modules := w.modules.set place none }

def run (w : World M) (moves : List Move) : Option (World M) := moves.foldlM (step c) w

def Holds (w : World M) (place : ℕ) (handle : UInt64) : Prop :=
  ∃ module, w.at? place = some module ∧ module.instance? = some handle

end World

/-! ## The calls of one handle -/

inductive Phase where
  | unborn
  | live
  | gone
  | leaked
  deriving DecidableEq, Repr

/-- A handle is initialized once; it is used and destroyed at most once when that succeeded, and never called again.
A function that panics leaves it in the library's set. -/
def Phase.next : Phase → Call → Option Phase
  | .unborn, .initialise (.returned (.ok ())) => some .live
  | .unborn, .initialise (.returned (.error _)) => some .gone
  | .unborn, .initialise .panicked => some .leaked
  | .live, .poll | .live, .control _ | .live, .shutdown => some .live
  | .live, .destroy (.returned ()) => some .gone
  | .live, .destroy .panicked => some .leaked
  | _, _ => none

def phase (calls : List (UInt64 × Call)) (handle : UInt64) : Option Phase :=
  (of handle calls).foldlM Phase.next .unborn

theorem phase_append (calls : List (UInt64 × Call)) (handle : UInt64) (call : Call) (other : UInt64) :
    phase (calls ++ [(handle, call)]) other =
      if other = handle then (phase calls other).bind fun p => p.next call else phase calls other := by
  unfold phase
  split
  · rename_i heq
    subst heq
    rw [of_append, of_single_self, List.foldlM_append]
    simp
  · rename_i hne
    rw [of_append, of_single_ne (Ne.symm hne), List.append_nil]

/-! ## The library keeps its set -/

structure Stage {M : Type} (l : Library M) (held : UInt64 → Prop) (handle : UInt64) (p : Phase) : Prop where
  reached : phase l.calls handle = some p
  active : handle ∈ l.instances.active ↔ p = .live ∨ p = .leaked
  held : p = .live ↔ held handle
  unborn : p = .unborn ↔ handle = 0 ∨ l.created < handle.toNat

structure Kept {M : Type} (l : Library M) (held : UInt64 → Prop) : Prop where
  next : l.instances.next.toNat = (l.created + 1) % 2 ^ 64
  stages : ∀ handle, ∃ p, Stage l held handle p

section Library
variable {M : Type} {c : Callbacks M} {l : Library M} {held : UInt64 → Prop}

theorem Kept.contains (h : Kept l held) {handle : UInt64} (hheld : held handle) :
    l.instances.contains handle = true := by
  obtain ⟨p, hp⟩ := h.stages handle
  have hlive := hp.held.mpr hheld
  have hne : handle ≠ 0 := fun hzero => by
    have hunborn := hp.unborn.mpr (.inl hzero)
    rw [hlive] at hunborn
    cases hunborn
  have hmem := hp.active.mpr (.inl hlive)
  simp [Instances.contains, hne, hmem]

/-- One call under a handle takes that handle on, and leaves the others where they are. -/
theorem Kept.call (h : Kept l held) {l' : Library M} {held' : UInt64 → Prop} {handle : UInt64} {call : Call}
    {p p' : Phase} (hp : phase l.calls handle = some p) (hnext : p.next call = some p')
    (hcalls : l'.calls = l.calls ++ [(handle, call)])
    (hfresh : l'.instances.next.toNat = (l'.created + 1) % 2 ^ 64)
    (hothers : ∀ other, other ≠ handle → (other ∈ l'.instances.active ↔ other ∈ l.instances.active) ∧
      (held' other ↔ held other) ∧ (other = 0 ∨ l'.created < other.toNat ↔ other = 0 ∨ l.created < other.toNat))
    (hactive : handle ∈ l'.instances.active ↔ p' = .live ∨ p' = .leaked) (hheld : p' = .live ↔ held' handle)
    (hborn : p' = .unborn ↔ handle = 0 ∨ l'.created < handle.toNat) : Kept l' held' := by
  refine ⟨hfresh, fun other => ?_⟩
  by_cases hne : other = handle
  · subst hne
    refine ⟨p', ?_, hactive, hheld, hborn⟩
    rw [hcalls, phase_append, if_pos rfl, hp]
    exact hnext
  · obtain ⟨q, hq⟩ := h.stages other
    obtain ⟨hsame, hkeeps, hunborn⟩ := hothers other hne
    refine ⟨q, ?_, hsame.trans hq.active, hq.held.trans hkeeps.symm, hq.unborn.trans hunborn.symm⟩
    rw [hcalls, phase_append, if_neg hne]
    exact hq.reached

theorem Kept.use (h : Kept l held) {handle : UInt64} (hheld : held handle) {call : Call}
    (hcall : Phase.next .live call = some .live) (module : M) : Kept (l.called handle call module) held := by
  obtain ⟨p, hp⟩ := h.stages handle
  obtain rfl := hp.held.mpr hheld
  exact h.call hp.reached hcall rfl h.next (fun _ _ => ⟨Iff.rfl, Iff.rfl, Iff.rfl⟩) hp.active hp.held hp.unborn

theorem Kept.poll (h : Kept l held) {handle : UInt64} (hheld : held handle) :
    Kept (Library.ffiPoll c handle l).2 held := by
  unfold Library.ffiPoll
  rw [if_pos (h.contains hheld)]
  exact h.use hheld rfl _

theorem Kept.control (h : Kept l held) {handle : UInt64} (hheld : held handle) (request : List UInt8)
    (capacity : ℕ) : Kept (Library.ffiControl c handle request capacity l).2 held := by
  unfold Library.ffiControl
  rw [if_pos (h.contains hheld)]
  dsimp only
  split <;> exact h.use hheld rfl _

theorem Kept.shutdown (h : Kept l held) {handle : UInt64} (hheld : held handle) :
    Kept (Library.ffiShutdown c handle l).2 held := by
  unfold Library.ffiShutdown
  rw [if_pos (h.contains hheld)]
  exact h.use hheld rfl _

theorem Kept.destroy (h : Kept l held) {handle : UInt64} (hheld : held handle) :
    Kept (Library.ffiDestroy c handle l) fun other => held other ∧ other ≠ handle := by
  obtain ⟨p, hp⟩ := h.stages handle
  obtain rfl := hp.held.mpr hheld
  have hborn : ¬ (handle = 0 ∨ l.created < handle.toNat) := fun hn => nomatch hp.unborn.mpr hn
  have hothers : ∀ other, other ≠ handle → (held other ∧ other ≠ handle ↔ held other) := fun other hne =>
    and_iff_left hne
  unfold Library.ffiDestroy
  generalize c.destroy handle l.module = r
  obtain ⟨outcome, module⟩ := r
  cases outcome with
  | returned value =>
    refine h.call hp.reached (show Phase.next .live (.destroy (.returned value)) = some .gone from rfl)
      rfl h.next (fun other hne => ⟨?_, hothers other hne, Iff.rfl⟩) ?_ ?_ ?_
    · simp [Instances.remove, Library.called, hne]
    · simp [Instances.remove]
    · simp
    · exact ⟨nofun, fun hn => absurd hn hborn⟩
  | panicked =>
    refine h.call hp.reached (show Phase.next .live (.destroy .panicked) = some .leaked from rfl)
      rfl h.next (fun other hne => ⟨Iff.rfl, hothers other hne, Iff.rfl⟩)
      ⟨fun _ => .inr rfl, fun _ => hp.active.mpr (.inl rfl)⟩ ?_ ⟨nofun, fun hn => absurd hn hborn⟩
    simp

theorem ffiCreate_created (config base : List UInt8) (l : Library M) :
    (Library.ffiCreate c config base l).2.2.created = l.created + 1 := by
  unfold Library.ffiCreate
  dsimp only
  split
  · rfl
  · split <;> rfl

theorem Kept.create (h : Kept l held) (config base : List UInt8) (hcount : l.created + 1 < 2 ^ 64) :
    let handle := (Library.ffiCreate c config base l).2.1
    (handle ≠ 0 ∧ (Library.ffiCreate c config base l).1 = statusOk ∧ ¬ held handle ∧
      Kept (Library.ffiCreate c config base l).2.2 fun other => other = handle ∨ held other) ∨
    (handle = 0 ∧ Kept (Library.ffiCreate c config base l).2.2 held) := by
  have hnext : l.instances.next.toNat = l.created + 1 := by rw [h.next, Nat.mod_eq_of_lt hcount]
  have hne : l.instances.next ≠ 0 := fun hzero => by simp [hzero] at hnext
  obtain ⟨p, hp⟩ := h.stages l.instances.next
  obtain rfl := hp.unborn.mpr (.inr (by omega))
  have hfree : l.instances.next ∉ l.instances.active := fun hmem => by simpa using hp.active.mp hmem
  have hnot : ¬ held l.instances.next := fun hheld => nomatch hp.held.mpr hheld
  have hfresh : (l.instances.next + 1).toNat = (l.created + 1 + 1) % 2 ^ 64 := by
    rw [UInt64.toNat_add, hnext]
    rfl
  have hborn : ¬ (l.instances.next = 0 ∨ l.created + 1 < l.instances.next.toNat) := by
    rw [not_or]
    exact ⟨hne, by omega⟩
  have hlater : ∀ other : UInt64, other ≠ l.instances.next →
      (other = 0 ∨ l.created + 1 < other.toNat ↔ other = 0 ∨ l.created < other.toNat) := by
    intro other hother
    have hvalue : other.toNat ≠ l.created + 1 := fun heq => hother (UInt64.toNat_inj.mp (heq.trans hnext.symm))
    exact or_congr Iff.rfl (by omega)
  unfold Library.ffiCreate Instances.create
  dsimp only
  rw [if_neg hne]
  dsimp only
  generalize c.initialise l.instances.next config base l.module = r
  obtain ⟨outcome, module⟩ := r
  cases outcome with
  | returned value =>
    cases value with
    | ok value =>
      refine .inl ⟨hne, rfl, hnot, ?_⟩
      refine h.call hp.reached (show Phase.next .unborn (.initialise (.returned (.ok value))) = some .live from rfl)
        rfl hfresh (fun other hother => ⟨?_, ?_, hlater other hother⟩) ?_ ?_ ?_
      · simp [Library.called, hfree, hother]
      · simp [hother]
      · simp [Library.called, hfree]
      · simp
      · exact ⟨nofun, fun hn => absurd hn hborn⟩
    | error status =>
      refine .inr ⟨rfl, ?_⟩
      refine h.call hp.reached (show Phase.next .unborn (.initialise (.returned (.error status))) = some .gone from rfl)
        rfl hfresh
        (fun other hother => ⟨?_, Iff.rfl, hlater other hother⟩) ?_ ?_ ?_
      · simp [Instances.remove, Library.called, hfree, hother]
      · simp [Instances.remove]
      · exact ⟨nofun, fun hheld => absurd hheld hnot⟩
      · exact ⟨nofun, fun hn => absurd hn hborn⟩
  | panicked =>
    refine .inr ⟨rfl, ?_⟩
    refine h.call hp.reached (show Phase.next .unborn (.initialise .panicked) = some .leaked from rfl)
      rfl hfresh
      (fun other hother => ⟨?_, Iff.rfl, hlater other hother⟩) ?_ ?_ ?_
    · simp [Library.called, hfree, hother]
    · simp [Library.called, hfree]
    · exact ⟨nofun, fun hheld => absurd hheld hnot⟩
    · exact ⟨nofun, fun hn => absurd hn hborn⟩

end Library

/-! ## Calls through a module -/

section Modules
variable {M : Type} {c : Callbacks M} {l : Library M} {held : UInt64 → Prop} {m : LoadedModule}

theorem Kept.modulePoll (h : Kept l held) (hheld : ∀ handle, m.instance? = some handle → held handle) :
    Kept (m.poll c l).2 held := by
  unfold LoadedModule.poll
  split
  · exact h
  · rename_i handle hinstance
    have hpoll := h.poll (c := c) (hheld handle hinstance)
    dsimp only
    split <;> exact hpoll

theorem Kept.modulePollControl (h : Kept l held) (hheld : ∀ handle, m.instance? = some handle → held handle)
    (request : List UInt8) (maxResponse : ℕ) : Kept (m.pollControl c request maxResponse l).2 held := by
  unfold LoadedModule.pollControl
  split
  · exact h
  · rename_i handle hinstance
    have hcontrol := h.control (c := c) (hheld handle hinstance) request maxResponse
    dsimp only
    split_ifs <;> exact hcontrol

theorem Kept.modulePollShutdown (h : Kept l held) (hheld : ∀ handle, m.instance? = some handle → held handle) :
    Kept (m.pollShutdown c l).2 held := by
  unfold LoadedModule.pollShutdown
  split
  · exact h
  · rename_i handle hinstance
    have hshutdown := h.shutdown (c := c) (hheld handle hinstance)
    dsimp only
    split_ifs <;> exact hshutdown

@[simp] theorem ffiPoll_created (handle : UInt64) : (Library.ffiPoll c handle l).2.created = l.created := by
  unfold Library.ffiPoll
  split <;> rfl

@[simp] theorem ffiControl_created (handle : UInt64) (request : List UInt8) (capacity : ℕ) :
    (Library.ffiControl c handle request capacity l).2.created = l.created := by
  unfold Library.ffiControl
  split
  · dsimp only
    split <;> rfl
  · rfl

@[simp] theorem ffiShutdown_created (handle : UInt64) : (Library.ffiShutdown c handle l).2.created = l.created := by
  unfold Library.ffiShutdown
  split <;> rfl

@[simp] theorem ffiDestroy_created (handle : UInt64) : (Library.ffiDestroy c handle l).created = l.created := by
  unfold Library.ffiDestroy
  dsimp only
  split <;> rfl

theorem poll_created : (m.poll c l).2.created = l.created := by
  unfold LoadedModule.poll
  split
  · rfl
  · dsimp only
    split <;> exact ffiPoll_created _

theorem pollControl_created (request : List UInt8) (maxResponse : ℕ) :
    (m.pollControl c request maxResponse l).2.created = l.created := by
  unfold LoadedModule.pollControl
  split
  · rfl
  · dsimp only
    split_ifs <;> exact ffiControl_created _ _ _

theorem pollShutdown_created : (m.pollShutdown c l).2.created = l.created := by
  unfold LoadedModule.pollShutdown
  split
  · rfl
  · dsimp only
    split_ifs <;> exact ffiShutdown_created _

theorem drop_created : (m.drop c l).created = l.created := by
  unfold LoadedModule.drop
  split
  · exact ffiDestroy_created _
  · rfl

theorem create_created : l.created ≤ (m.create c l).2.2.created := by
  unfold LoadedModule.create
  split
  · exact Nat.le_refl _
  · have hcreated := ffiCreate_created (c := c) m.config m.baseDirectory l
    dsimp only
    split_ifs
    all_goals exact Nat.le_of_lt (Nat.lt_of_succ_le (Nat.le_of_eq hcreated.symm))

end Modules

/-! ## The core and its modules -/

namespace World
variable {M : Type} {c : Callbacks M} {w : World M}

/-- The handles the core has are those the library takes for live, and no two modules share one. -/
structure Sound (w : World M) : Prop where
  kept : Kept w.library fun handle => ∃ place, w.Holds place handle
  alone : ∀ place other handle, w.Holds place handle → w.Holds other handle → place = other

theorem at_append (w : World M) (module : LoadedModule) (place : ℕ) :
    (w.modules ++ [some module])[place]?.join = w.at? place ∨
      w.at? place = none ∧ (w.modules ++ [some module])[place]?.join = some module := by
  unfold at?
  rcases Nat.lt_trichotomy place w.modules.length with hlt | rfl | hgt
  · exact .inl (by rw [List.getElem?_append_left hlt])
  · exact .inr (by simp)
  · left
    rw [List.getElem?_eq_none (by simp; omega), List.getElem?_eq_none (by omega)]

theorem at_set {place : ℕ} {module : LoadedModule} (h : w.at? place = some module) (next : Option LoadedModule)
    (other : ℕ) : (w.modules.set place next)[other]?.join = if other = place then next else w.at? other := by
  have hlt : place < w.modules.length := by
    by_contra hge
    rw [at?, List.getElem?_eq_none (by omega)] at h
    cases h
  rw [List.getElem?_set]
  split
  · rename_i heq
    rw [if_pos heq.symm]
    rfl
  · rename_i hne
    rw [if_neg (Ne.symm hne)]
    rfl

theorem Sound.answered (h : w.Sound) {library : Library M}
    (hkept : Kept library fun handle => ∃ place, w.Holds place handle) (answer : Answer) :
    (w.answered library answer).Sound := ⟨hkept, h.alone⟩

theorem Sound.load (h : w.Sound) (config base : List UInt8) :
    Yields (step c w (.load config base)) Sound := by
  intro next hnext
  rw [step] at hnext
  split at hnext
  · rename_i module hload
    cases hnext
    have hnew : module.instance? = none := by
      unfold LoadedModule.load at hload
      dsimp only at hload
      split_ifs at hload
      cases hload
      rfl
    have hholds : ∀ place handle,
        ({ w with modules := w.modules ++ [some module], answers := w.answers ++ [.loaded none] } : World M).Holds
          place handle ↔ w.Holds place handle := by
      intro place handle
      unfold Holds
      rcases w.at_append module place with hsame | ⟨hnone, hsome⟩
      · rw [← hsame]
        rfl
      · rw [hnone]
        constructor
        · rintro ⟨m, hm, hhandle⟩
          cases hsome.symm.trans hm
          rw [hnew] at hhandle
          cases hhandle
        · rintro ⟨m, hm, -⟩
          cases hm
    refine ⟨?_, fun place other handle hp ho => h.alone place other handle ((hholds _ _).mp hp) ((hholds _ _).mp ho)⟩
    simp only [hholds]
    exact h.kept
  · cases hnext
    exact h.answered h.kept _

theorem holds_set {place : ℕ} {module : LoadedModule} (h : w.at? place = some module) (next : Option LoadedModule)
    (library : Library M) (answers : List Answer) (other : ℕ) (handle : UInt64) :
    (World.mk library (w.modules.set place next) answers).Holds other handle ↔
      if other = place then ∃ m, next = some m ∧ m.instance? = some handle else w.Holds other handle := by
  unfold Holds
  change (∃ m, (w.modules.set place next)[other]?.join = some m ∧ _) ↔ _
  rw [at_set h next other]
  split <;> exact Iff.rfl

theorem Sound.same (h : w.Sound) {place : ℕ} {module : LoadedModule} (hat : w.at? place = some module)
    {library : Library M} (hkept : Kept library fun handle => ∃ place, w.Holds place handle)
    (next : LoadedModule) (hnext : next.instance? = module.instance?) (answers : List Answer) :
    (World.mk library (w.modules.set place (some next)) answers).Sound := by
  have hholds : ∀ other handle,
      (World.mk library (w.modules.set place (some next)) answers).Holds other handle ↔ w.Holds other handle := by
    intro other handle
    rw [holds_set hat]
    split
    · rename_i heq
      subst heq
      constructor
      · rintro ⟨m, hm, hhandle⟩
        cases hm
        exact ⟨module, hat, hnext ▸ hhandle⟩
      · rintro ⟨m, hm, hhandle⟩
        cases hat.symm.trans hm
        exact ⟨next, rfl, hnext ▸ hhandle⟩
    · rfl
  refine ⟨?_, fun place other handle hp ho => h.alone place other handle ((hholds _ _).mp hp) ((hholds _ _).mp ho)⟩
  simp only [hholds]
  exact hkept

theorem Sound.adopt (h : w.Sound) {place : ℕ} {module : LoadedModule} (hat : w.at? place = some module)
    (hinstance : module.instance? = none) {handle : UInt64} (hfree : ¬ ∃ place, w.Holds place handle)
    {library : Library M} (hkept : Kept library fun other => other = handle ∨ ∃ place, w.Holds place other)
    (answers : List Answer) :
    (World.mk library (w.modules.set place (some { module with instance? := some handle })) answers).Sound := by
  have hempty : ∀ other, ¬ w.Holds place other := by
    rintro other ⟨m, hm, hhandle⟩
    cases hat.symm.trans hm
    rw [hinstance] at hhandle
    cases hhandle
  have hholds : ∀ other x,
      (World.mk library (w.modules.set place (some { module with instance? := some handle })) answers).Holds other x ↔
        other = place ∧ x = handle ∨ w.Holds other x := by
    intro other x
    rw [holds_set hat]
    split
    · rename_i heq
      subst heq
      constructor
      · rintro ⟨m, hm, hhandle⟩
        cases hm
        exact .inl ⟨rfl, (Option.some.inj hhandle).symm⟩
      · rintro (⟨-, rfl⟩ | hold)
        · exact ⟨_, rfl, rfl⟩
        · exact absurd hold (hempty x)
    · rename_i hne
      exact ⟨.inr, fun h => h.resolve_left fun hn => hne hn.1⟩
  refine ⟨?_, fun first second x hp ho => ?_⟩
  · simp only [hholds]
    have hheld : (fun x => ∃ other, other = place ∧ x = handle ∨ w.Holds other x) =
        fun x => x = handle ∨ ∃ other, w.Holds other x := by
      funext x
      simp only [exists_or, exists_eq_left]
    rw [hheld]
    exact hkept
  · rcases (hholds first x).mp hp with ⟨rfl, rfl⟩ | hold
    · rcases (hholds second x).mp ho with ⟨rfl, -⟩ | hother
      · rfl
      · exact absurd ⟨second, hother⟩ hfree
    · rcases (hholds second x).mp ho with ⟨rfl, rfl⟩ | hother
      · exact absurd ⟨first, hold⟩ hfree
      · exact h.alone first second x hold hother

theorem Sound.create (h : w.Sound) {place : ℕ} {next : World M} (hnext : step c w (.create place) = some next)
    (hcount : next.library.created < 2 ^ 64) : next.Sound := by
  obtain ⟨module, hat, hnext⟩ := Option.map_eq_some_iff.mp hnext
  unfold LoadedModule.create at hnext
  cases hinstance : module.instance? with
  | some held =>
    rw [hinstance] at hnext
    cases hnext
    exact h.same hat h.kept module rfl _
  | none =>
    rw [hinstance] at hnext
    dsimp only at hnext
    have hcreated := ffiCreate_created (c := c) module.config module.baseDirectory w.library
    have hspec := h.kept.create (c := c) module.config module.baseDirectory
    generalize Library.ffiCreate c module.config module.baseDirectory w.library = r at *
    obtain ⟨status, handle, library⟩ := r
    dsimp only at hcreated hspec hnext
    have hlibrary : next.library = library := by
      split_ifs at hnext <;> cases hnext <;> rfl
    have hbound : w.library.created + 1 < 2 ^ 64 := by
      rw [← hcreated, ← hlibrary]
      exact hcount
    rcases hspec hbound with ⟨hne, hstatus, hfree, hkept⟩ | ⟨hzero, hkept⟩
    · rw [if_neg (not_not_intro hstatus), if_neg hne] at hnext
      cases hnext
      exact h.adopt hat hinstance hfree hkept _
    · have hsame : ∃ answers, next = ⟨library, w.modules.set place (some module), answers⟩ := by
        split_ifs at hnext <;> cases hnext <;> exact ⟨_, rfl⟩
      obtain ⟨answers, rfl⟩ := hsame
      exact h.same hat hkept module rfl answers

theorem Sound.drop (h : w.Sound) (place : ℕ) : Yields (step c w (.drop place)) Sound := by
  intro next hnext
  obtain ⟨module, hat, rfl⟩ := Option.map_eq_some_iff.mp hnext
  have hholds : ∀ library answers other handle,
      (World.mk (M := M) library (w.modules.set place none) answers).Holds other handle ↔
        other ≠ place ∧ w.Holds other handle := by
    intro library answers other handle
    rw [holds_set hat]
    split
    · rename_i heq
      exact ⟨fun ⟨_, hm, _⟩ => (nomatch hm), fun hn => absurd heq hn.1⟩
    · rename_i hne
      exact (and_iff_right hne).symm
  refine ⟨?_, fun _ _ handle hp ho => h.alone _ _ handle ((hholds _ _ _ _).mp hp).2 ((hholds _ _ _ _).mp ho).2⟩
  simp only [hholds]
  unfold LoadedModule.drop
  cases hinstance : module.instance? with
  | none =>
    have hothers : (fun handle => ∃ other, other ≠ place ∧ w.Holds other handle) =
        fun handle => ∃ other, w.Holds other handle := by
      funext handle
      refine propext ⟨fun ⟨other, _, ho⟩ => ⟨other, ho⟩, fun ⟨other, ho⟩ => ⟨other, ?_, ho⟩⟩
      rintro rfl
      obtain ⟨m, hm, hhandle⟩ := ho
      cases hat.symm.trans hm
      rw [hinstance] at hhandle
      cases hhandle
    rw [hothers]
    exact h.kept
  | some held =>
    have hholder : w.Holds place held := ⟨module, hat, hinstance⟩
    have hothers : (fun handle => ∃ other, other ≠ place ∧ w.Holds other handle) =
        fun handle => (∃ other, w.Holds other handle) ∧ handle ≠ held := by
      funext handle
      refine propext ⟨fun ⟨other, hne, ho⟩ => ⟨⟨other, ho⟩, ?_⟩, fun ⟨⟨other, ho⟩, hne⟩ => ⟨other, ?_, ho⟩⟩
      · rintro rfl
        exact hne (h.alone _ _ _ ho hholder)
      · rintro rfl
        obtain ⟨m, hm, hhandle⟩ := ho
        cases hat.symm.trans hm
        exact hne (Option.some.inj (hhandle.symm.trans hinstance))
    rw [hothers]
    exact h.kept.destroy ⟨place, hholder⟩

theorem Holds.of_at {place : ℕ} {module : LoadedModule} (hat : w.at? place = some module) (handle : UInt64)
    (h : module.instance? = some handle) : ∃ place, w.Holds place handle := ⟨place, module, hat, h⟩

theorem Sound.step (h : w.Sound) {move : Move} {next : World M} (hnext : step c w move = some next)
    (hcount : next.library.created < 2 ^ 64) : next.Sound := by
  cases move with
  | load config base => exact h.load config base next hnext
  | create place => exact h.create hnext hcount
  | poll place =>
    obtain ⟨module, hat, rfl⟩ := Option.map_eq_some_iff.mp hnext
    exact h.answered (h.kept.modulePoll (Holds.of_at hat)) _
  | control place request maxResponse =>
    obtain ⟨module, hat, rfl⟩ := Option.map_eq_some_iff.mp hnext
    exact h.answered (h.kept.modulePollControl (Holds.of_at hat) request maxResponse) _
  | shutdown place =>
    obtain ⟨module, hat, rfl⟩ := Option.map_eq_some_iff.mp hnext
    exact h.answered (h.kept.modulePollShutdown (Holds.of_at hat)) _
  | drop place => exact h.drop place next hnext

theorem created_mono {move : Move} {next : World M} (hnext : World.step c w move = some next) :
    w.library.created ≤ next.library.created := by
  cases move with
  | load config base =>
    rw [World.step] at hnext
    split at hnext <;> cases hnext <;> exact Nat.le_refl _
  | create place =>
    obtain ⟨module, -, rfl⟩ := Option.map_eq_some_iff.mp hnext
    exact create_created
  | poll place =>
    obtain ⟨module, -, rfl⟩ := Option.map_eq_some_iff.mp hnext
    exact Nat.le_of_eq poll_created.symm
  | control place request maxResponse =>
    obtain ⟨module, -, rfl⟩ := Option.map_eq_some_iff.mp hnext
    exact Nat.le_of_eq (pollControl_created request maxResponse).symm
  | shutdown place =>
    obtain ⟨module, -, rfl⟩ := Option.map_eq_some_iff.mp hnext
    exact Nat.le_of_eq pollShutdown_created.symm
  | drop place =>
    obtain ⟨module, -, rfl⟩ := Option.map_eq_some_iff.mp hnext
    exact Nat.le_of_eq drop_created.symm

theorem run_created {moves : List Move} {next : World M} (hrun : run c w moves = some next) :
    w.library.created ≤ next.library.created := by
  induction moves generalizing w with
  | nil =>
    cases hrun
    exact Nat.le_refl _
  | cons move moves ih =>
    rw [run, List.foldlM_cons] at hrun
    obtain ⟨middle, hfirst, hrest⟩ := Option.bind_eq_some_iff.mp hrun
    exact Nat.le_trans (created_mono hfirst) (ih hrest)

theorem Sound.run (h : w.Sound) {moves : List Move} {next : World M} (hrun : World.run c w moves = some next)
    (hcount : next.library.created < 2 ^ 64) : next.Sound := by
  induction moves generalizing w with
  | nil =>
    cases hrun
    exact h
  | cons move moves ih =>
    rw [World.run, List.foldlM_cons] at hrun
    obtain ⟨middle, hfirst, hrest⟩ := Option.bind_eq_some_iff.mp hrun
    exact ih (h.step hfirst (Nat.lt_of_le_of_lt (run_created hrest) hcount)) hrest

theorem new_sound (module : M) : (World.new module).Sound := by
  have hholds : ∀ place handle, ¬ (World.new module).Holds place handle := by
    rintro place handle ⟨m, hm, -⟩
    cases hm
  refine ⟨⟨rfl, fun handle => ⟨.unborn, rfl, ?_, ?_, ?_⟩⟩, fun place other handle hp => absurd hp (hholds _ _)⟩
  · simp [World.new, Instances.new]
  · simp [hholds]
  · have hzero : handle = 0 ↔ handle.toNat = 0 := by
      rw [← UInt64.toNat_inj]
      rfl
    simp only [World.new, true_iff]
    rw [hzero]
    omega

end World

/-- Whatever the core calls in whatever order and whatever the functions of the modules do, also when they panic: the
calls under each handle are those of one life, initialized once, used only while live, destroyed at most once and never
called again. The library's set holds the live handles and those leaked by a panic, and a live handle is the handle of
exactly one module of the core. The library can hand out so many handles as a word has values. -/
theorem module_lifecycle {M : Type} (c : Callbacks M) (module : M) {moves : List Move} {w : World M}
    (hrun : World.run c (World.new module) moves = some w) (hcount : w.library.created < 2 ^ 64) (handle : UInt64) :
    ∃ p, phase w.library.calls handle = some p ∧
      (handle ∈ w.library.instances.active ↔ p = .live ∨ p = .leaked) ∧
      (p = .live ↔ ∃! place, w.Holds place handle) := by
  have hsound := (World.new_sound module).run hrun hcount
  obtain ⟨p, hp⟩ := hsound.kept.stages handle
  refine ⟨p, hp.reached, hp.active, hp.held.trans ⟨fun ⟨place, hholds⟩ => ⟨place, hholds, fun other ho => ?_⟩, ?_⟩⟩
  · exact hsound.alone other place handle ho hholds
  · rintro ⟨place, hholds, -⟩
    exact ⟨place, hholds⟩

def fragile : Callbacks Unit where
  validate _ _ := .returned (.ok ())
  initialise _ _ _ m := (.returned (.ok ()), m)
  poll _ m := (.returned statusPending, m)
  control _ request m := (.returned (.ok request), m)
  shutdown _ m := (.returned statusOk, m)
  destroy _ m := (.panicked, m)

/-- Its handle stays in the set, and the next module has another one. -/
theorem fragile_lifecycle :
    ∃ w, World.run fragile (World.new ()) [.load [] [], .create 0, .poll 0, .drop 0, .load [] [], .create 1] = some w ∧
      phase w.library.calls 1 = some .leaked ∧
      ∃ p, phase w.library.calls 2 = some p ∧ (2 ∈ w.library.instances.active ↔ p = .live ∨ p = .leaked) ∧
        (p = .live ↔ ∃! place, w.Holds place 2) := by
  obtain ⟨w, hrun, hcount, hleaked⟩ : ∃ w, World.run fragile (World.new ())
      [.load [] [], .create 0, .poll 0, .drop 0, .load [] [], .create 1] = some w ∧ w.library.created < 2 ^ 64 ∧
      phase w.library.calls 1 = some .leaked := ⟨_, rfl, by decide, by decide⟩
  exact ⟨w, hrun, hleaked, module_lifecycle fragile () hrun hcount 2⟩

end Snolc.ModuleLifecycle

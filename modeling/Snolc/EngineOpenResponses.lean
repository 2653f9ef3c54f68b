import Snolc.EngineServing
import Snolc.MuxOffers

set_option autoImplicit false

namespace Snolc.Engine
open PollIo MuxFrame Mux AsyncTask WireFormat CoreIo GuardedRuns ScriptedIo

section Polls
variable {W T : Type} [Modules W T] [AsyncIo T]

def returned (r : Progress RespondFlow Unit × MuxSession T) : Bool :=
  match r.1 with
  | .finished (.ok ()) => true
  | _ => false

/-- `respond_flow` returns during the next poll. -/
def Live.sends (l : Live W T) : Bool :=
  l.reapClosed.session.responding.any fun r => returned (r.1.poll r.2.1 r.2.2)

structure ResponsePoll (T : Type) where
  stream : MuxStream
  before : Connection T
  after : Connection T

def Live.respondPolls (l : Live W T) : List (ResponsePoll T) :=
  l.reapClosed.session.responding.toList.map fun r => ⟨r.2.1, r.2.2.connection, (r.1.poll r.2.1 r.2.2).2.connection⟩

def Live.accepts (l : Live W T) : List (OpenRequest × MuxStream) :=
  let s := l.reapClosed.session
  if s.responding.isSome ∨ s.pending.isSome then []
  else
    match s.accepting with
    | none => []
    | some (stage, mux) =>
      match (stage.poll mux).1 with
      | .finished (.ok taken) => [taken]
      | _ => []

variable {b : TunnelBinding} {drift : ℕ} {l l' : Live W T} {p : PendingServerFlow}

structure Silent (l : Live W T) : Prop where
  sends : l.sends = false
  polls : l.respondPolls = []
  accepts : l.accepts = []

theorem accepts_of_pending (hp : l.session.pending = some p) : l.accepts = [] := by
  rw [Live.accepts]
  exact if_pos (.inr (by rw [(reapClosed_aside l).1, hp]; rfl))

theorem poll_working (hb : b.role = .server) {base : List (Occurrence T)} {active : List ActiveServerFlow}
    {stream : MuxStream} (h : AtWork base active stream l p) :
    Silent l ∧ Turned b base l.staying stream p.named (Live.poll b l) := by
  have hwork := h.reapClosed
  constructor
  · refine ⟨?_, ?_, ?_⟩
    · rw [Live.sends, hwork.responding]
      rfl
    · rw [Live.respondPolls, hwork.responding]
      rfl
    · exact accepts_of_pending h.pending
  · rw [Live.poll, hb]
    dsimp only
    rw [Live.pollServer, hwork.responding]
    dsimp only
    rw [if_pos (by rw [hwork.pending]; rfl)]
    exact pollPending_turned hwork rfl

end Polls

/-- A response that `respond_flow` has sent: the flow it answers with the stream that came with the
    request, the polls that wrote it, the session when it was started, and the session before and
    after the last of these polls. -/
structure Settlement (W T : Type) where
  flow : PendingServerFlow
  stream : MuxStream
  response : OpenResponse
  polls : List (ResponsePoll T)
  begun : Live W T
  before : Live W T
  after : Live W T

/-- A session with what `accept_flow` has returned, the responses it has started and those it has
    sent, the polls of the one at hand, and the number of streams it has lost count of. -/
structure Observed (W T : Type) where
  live : Live W T
  accepted : List (OpenRequest × MuxStream) := []
  begun : List (OpenResponse × Live W T) := []
  polls : List (ResponsePoll T) := []
  settled : List (Settlement W T) := []
  lost : ℕ := 0

section Runs
variable {W T : Type}

def Live.starts (l : Live W T) : List (OpenResponse × Live W T) :=
  match l.session.responding with
  | some (.start response, _, _) => [(response, l)]
  | _ => []

/-- Polls of `respond_flow` that have written all of `bytes` but `rest` on `stream`. -/
inductive Written [AsyncIo T] (stream : MuxStream) (bytes : List UInt8) :
    List (ResponsePoll T) → List UInt8 → Prop where
  | none : Written stream bytes [] bytes
  | poll {polls : List (ResponsePoll T)} {rest rest' : List UInt8} (p : ResponsePoll T) :
    Written stream bytes polls rest → p.stream = stream → Offering stream.id p.before rest p.after rest' →
    Written stream bytes (polls ++ [p]) rest'

def Settlement.accepted (s : Settlement W T) : OpenRequest × MuxStream := (s.flow.request, s.stream)

def Settlement.attached (s : Settlement W T) : Option (ℕ × UInt64) :=
  if s.response.status = .ok then s.flow.adapterFlow else none

/-- What a response says is borne out when it is started, and made good when it is sent. -/
structure Settlement.Truthful [Modules W T] [AsyncIo T] (b : TunnelBinding) (s : Settlement W T) : Prop where
  written : ∃ bytes, encodeOpenResponse s.response = .ok bytes ∧ Written s.stream bytes s.polls []
  backed : ∃ past since, s.begun.host.trace = past ++ .serverFlow s.flow.operation s.flow.request :: since ∧
    Backed b s.flow s.response s.begun.host.modules since
  accepted : s.response.status = .ok → ∃ flow handle, s.flow.adapterFlow = some flow ∧
    s.after.session.active = s.before.staying ++ [⟨some flow, handle⟩] ∧
    (s.before.since s.after).filterMap Occurrence.attaches = [flow]
  refused : s.response.status ≠ .ok → s.after.session.active = s.before.staying ∧
    (s.before.since s.after).filterMap Occurrence.attaches = [] ∧
    (s.before.since s.after).filterMap Occurrence.closes = s.flow.adapterFlow.toList ∧
    ∃ n, s.before.session.userStreams = some (n + 1) ∧ s.after.session.userStreams = some n

namespace Observed
variable [Modules W T] [AsyncIo T]

def settles (o : Observed W T) (polls : List (ResponsePoll T)) (after : Live W T) : List (Settlement W T) :=
  match o.live.session.pending, o.accepted.getLast?, o.begun.getLast? with
  | some flow, some (_, stream), some (response, begun) =>
    if o.live.sends then [⟨flow, stream, response, polls, begun, o.live, after⟩] else []
  | _, _, _ => []

def step (b : TunnelBinding) (o : Observed W T) : TunnelEvent T → Observed W T
  | .poll =>
    let after := (Live.poll b o.live).2
    let polls := o.polls ++ o.live.respondPolls
    { live := after
      accepted := o.accepted ++ o.live.accepts
      begun := o.begun ++ after.starts
      polls := if o.live.sends then [] else polls
      settled := o.settled ++ o.settles polls after
      lost := o.lost + o.live.leaked }
  | .disturb effect => { o with live := o.live.disturb effect }

def Returns (b : TunnelBinding) (o : Observed W T) : TunnelEvent T → Prop
  | .poll => (Live.poll b o.live).1 = .ok ()
  | .disturb _ => True

/-- Since `start` each request that was accepted, but for the one at hand, has been answered
    once and truthfully on its stream, and each flow answered with success has been attached once. -/
structure Truthful (b : TunnelBinding) (start : Live W T) (o : Observed W T) : Prop where
  answered : (start.since o.live).filterMap Occurrence.accepted =
    o.settled.map (fun s => s.flow.named) ++ o.live.session.pending.toList.map PendingServerFlow.named
  accepted : ∃ last, o.accepted = o.settled.map Settlement.accepted ++ last ∧
    last.map Prod.fst = o.live.session.pending.toList.map PendingServerFlow.request
  begun : ∃ last, o.begun.map Prod.fst = o.settled.map Settlement.response ++ last ∧
    last.length = o.live.session.responding.toList.length
  attached : (start.since o.live).filterMap Occurrence.attaches = o.settled.filterMap Settlement.attached
  streams : ∃ n, start.session.userStreams = some n ∧
    o.live.session.userStreams = some (n + o.live.session.flows + o.live.session.reserved + o.lost)
  settled : ∀ s ∈ o.settled, s.Truthful b

def Responding (stream : MuxStream) (response : OpenResponse) (polls : List (ResponsePoll T)) (stage : RespondFlow) :
    Prop :=
  (stage = .start response ∧ polls = []) ∨ ∃ bytes rest, encodeOpenResponse response = .ok bytes ∧
    Written stream bytes polls rest ∧ stage.Owes rest

inductive Stage (b : TunnelBinding) (o : Observed W T) : Prop where
  | resting : o.live.session.pending = none → o.live.session.responding = none →
    o.accepted = o.settled.map Settlement.accepted → o.begun.map Prod.fst = o.settled.map Settlement.response →
    o.polls = [] → Stage b o
  | working (past : List (Occurrence T)) (stream : MuxStream) (p : PendingServerFlow) :
    AtWork (past ++ [.serverFlow p.operation p.request]) o.live.session.active stream o.live p →
    o.accepted = o.settled.map Settlement.accepted ++ [(p.request, stream)] →
    o.begun.map Prod.fst = o.settled.map Settlement.response → o.polls = [] → Stage b o
  | asked (p : PendingServerFlow) (response : OpenResponse) (begun : Live W T) (front : List (OpenResponse × Live W T))
      (stage : RespondFlow) (stream : MuxStream) (mux : MuxSession T) (past since : List (Occurrence T)) :
    o.live.session.pending = some p → o.live.session.responding = some (stage, stream, mux) →
    p.accepted = decide (response.status = .ok) →
    o.accepted = o.settled.map Settlement.accepted ++ [(p.request, stream)] → o.begun = front ++ [(response, begun)] →
    front.map Prod.fst = o.settled.map Settlement.response → Responding stream response o.polls stage →
    begun.host.trace = past ++ .serverFlow p.operation p.request :: since →
    Backed b p response begun.host.modules since → Stage b o

structure Books (b : TunnelBinding) (start : Live W T) (o : Observed W T) : Prop where
  accepted : o.live.host.trace.filterMap Occurrence.accepted = start.host.trace.filterMap Occurrence.accepted ++
    (o.settled.map (fun s => s.flow.named) ++ o.live.session.pending.toList.map PendingServerFlow.named)
  attached : o.live.host.trace.filterMap Occurrence.attaches =
    start.host.trace.filterMap Occurrence.attaches ++ o.settled.filterMap Settlement.attached
  settled : ∀ s ∈ o.settled, s.Truthful b
  stage : o.Stage b

structure Sound (b : TunnelBinding) (start : Live W T) (n : ℕ) (o : Observed W T) : Prop where
  grows : Live.Grows start o.live
  counted : ∃ mux, o.live.session.Counted b (n + o.lost) mux
  books : o.Books b start

variable {b : TunnelBinding} {start l' : Live W T} {n : ℕ} {o : Observed W T}

theorem Responding.poll {stream : MuxStream} {response : OpenResponse} {polls : List (ResponsePoll T)}
    {stage : RespondFlow} (h : Responding stream response polls stage) (mux : MuxSession T)
    (hok : ∀ e, (stage.poll stream mux).1 ≠ .finished (.error e)) :
    ∃ bytes rest, encodeOpenResponse response = .ok bytes ∧
      Written stream bytes (polls ++ [⟨stream, mux.connection, (stage.poll stream mux).2.connection⟩]) rest ∧
      ((stage.poll stream mux).1 = .finished (.ok ()) → rest = []) ∧
      ∀ stage', (stage.poll stream mux).1 = .waiting stage' → stage'.Owes rest := by
  have hpart : ∃ bytes rest, encodeOpenResponse response = .ok bytes ∧ Written stream bytes polls rest ∧
      stage.Owes rest := by
    obtain ⟨rfl, rfl⟩ | hpart := h
    · obtain ⟨bytes, hbytes⟩ := RespondFlow.encoded_of_poll hok
      exact ⟨bytes, bytes, hbytes, .none, hbytes⟩
    · exact hpart
  obtain ⟨bytes, rest, hbytes, hwritten, howes⟩ := hpart
  obtain ⟨rest', hanswered⟩ := RespondFlow.poll_answered stream mux howes
  exact ⟨bytes, rest', hbytes, .poll _ hwritten rfl hanswered.offers, hanswered.finished, hanswered.waiting⟩

theorem Sound.truthful (h : o.Sound b start n) (hn : start.session.userStreams = some n) : o.Truthful b start := by
  have haccepted := h.books.accepted
  have hattached := h.books.attached
  rw [h.grows, List.filterMap_append] at haccepted hattached
  refine ⟨List.append_cancel_left haccepted, ?_, ?_, List.append_cancel_left hattached, ⟨n, hn, ?_⟩, h.books.settled⟩
  · cases h.books.stage with
    | resting hp _ hrequests => exact ⟨[], by rw [hrequests, List.append_nil], by rw [hp]; rfl⟩
    | working _ stream p hwork hrequests => exact ⟨_, hrequests, by rw [hwork.pending]; rfl⟩
    | asked p _ _ _ _ _ _ _ _ hp _ _ hrequests => exact ⟨_, hrequests, by rw [hp]; rfl⟩
  · cases h.books.stage with
    | resting _ hr _ hbegun => exact ⟨[], by rw [hbegun, List.append_nil], by rw [hr]; rfl⟩
    | working _ _ _ hwork _ hbegun => exact ⟨[], by rw [hbegun, List.append_nil], by rw [hwork.responding]; rfl⟩
    | asked _ response _ _ _ _ _ _ _ _ hr _ _ hbegun hfront =>
      exact ⟨[response], by rw [hbegun, List.map_append, hfront]; rfl, by rw [hr]; rfl⟩
  · obtain ⟨mux, hcounted⟩ := h.counted
    rw [hcounted.lends.userStreams, hcounted.count]
    congr 1
    omega

instance (b : TunnelBinding) (o : Observed W T) (event : TunnelEvent T) : Decidable (o.Returns b event) :=
  match event with
  | .poll => inferInstanceAs (Decidable ((Live.poll b o.live).1 = .ok ()))
  | .disturb _ => isTrue trivial

end Observed
end Runs

end Snolc.Engine

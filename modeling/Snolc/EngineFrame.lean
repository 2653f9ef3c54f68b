import Snolc.EngineSession

set_option autoImplicit false

namespace Snolc.Engine
open PollIo MuxFrame Mux AsyncTask WireFormat CoreIo

namespace EstablishedSession
variable {T : Type} (s : EstablishedSession T) (f : Connection T → Connection T)

@[simp] theorem touch_policySession : (s.touch f).policySession = s.policySession := rfl
@[simp] theorem touch_pending : (s.touch f).pending = s.pending := rfl
@[simp] theorem touch_clientPending : (s.touch f).clientPending = s.clientPending := rfl

@[simp] theorem touch_responding_isNone : (s.touch f).responding.isNone = s.responding.isNone := by simp [touch]

theorem touch_id : s.touch id = s := by
  obtain ⟨mux, policySession, accepting, responding, openings, pending, clientPending, active⟩ := s
  simp [touch, MuxSession.withConnection]

theorem touch_touch (g : Connection T → Connection T) : (s.touch f).touch g = s.touch (g ∘ f) := by
  simp [touch, MuxSession.withConnection, Function.comp_def]

end EstablishedSession

/-- Calls other than those that resolve and open a flow. -/
def Occurrence.Neutral {T : Type} : Occurrence T → Prop
  | .call (.adapterResolve _ _ _) _ => False
  | .call (.adapterOpen _ _ _) _ => False
  | .call _ _ => True
  | _ => False

structure Around {W T : Type} (l l' : Live W T) : Prop where
  trace : ∃ more, l'.host.trace = l.host.trace ++ more ∧ ∀ o ∈ more, o.Neutral
  session : ∃ f, l'.session = l.session.touch f

namespace Around
variable {W T : Type} {l l' l'' : Live W T}

theorem refl (l : Live W T) : Around l l :=
  ⟨⟨[], by simp, by simp⟩, id, l.session.touch_id.symm⟩

theorem trans (h : Around l l') (h' : Around l' l'') : Around l l'' := by
  obtain ⟨⟨more, ht, hn⟩, f, hs⟩ := h
  obtain ⟨⟨more', ht', hn'⟩, g, hs'⟩ := h'
  refine ⟨⟨more ++ more', by rw [ht', ht, List.append_assoc], fun o ho => ?_⟩, g ∘ f, ?_⟩
  · rcases List.mem_append.mp ho with ho | ho
    · exact hn o ho
    · exact hn' o ho
  · rw [hs', hs, EstablishedSession.touch_touch]

theorem policySession (h : Around l l') : l'.session.policySession = l.session.policySession := by
  obtain ⟨f, hs⟩ := h.session
  rw [hs, EstablishedSession.touch_policySession]

theorem pending (h : Around l l') : l'.session.pending = l.session.pending := by
  obtain ⟨f, hs⟩ := h.session
  rw [hs, EstablishedSession.touch_pending]

theorem clientPending (h : Around l l') : l'.session.clientPending = l.session.clientPending := by
  obtain ⟨f, hs⟩ := h.session
  rw [hs, EstablishedSession.touch_clientPending]

theorem responding (h : Around l l') : l'.session.responding.isNone = l.session.responding.isNone := by
  obtain ⟨f, hs⟩ := h.session
  rw [hs, EstablishedSession.touch_responding_isNone]

end Around

namespace Live
variable {W T α : Type} {l m : Live W T}

theorem withRegistry_around (l : Live W T) (registry : Registry) : Around l (l.withRegistry registry) :=
  ⟨⟨[], (List.append_nil _).symm, by simp⟩, id, l.session.touch_id.symm⟩

theorem registering_around {table : Table} {limit : ℕ} {next : Handle → Live W T → Reply W T α}
    (h : Around m l) (hnext : ∀ handle l, Around m l → Around m (next handle l).2) :
    Around m (l.registering table limit next).2 := by
  unfold registering
  split
  · exact h.trans (l.withRegistry_around _)
  · rename_i handle registry _
    have hn := hnext handle _ (h.trans (l.withRegistry_around registry))
    split <;> rename_i heq <;> rw [heq] at hn
    · exact hn
    · exact hn.trans (withRegistry_around _ _)

theorem dropStream_around (l : Live W T) (stream : Option MuxStream) : Around l (l.dropStream stream) := by
  unfold dropStream
  split
  · exact Around.refl l
  · exact ⟨⟨[], (List.append_nil _).symm, by simp⟩, _, rfl⟩

theorem attempt_around {r : Except LoadError Unit × Live W T} {next : Live W T → Reply W T α}
    (h : Around m r.2) (hnext : ∀ l, Around m l → Around m (next l).2) : Around m (attempt r next).2 := by
  unfold attempt
  split
  · exact hnext _ h
  · exact h

variable [Modules W T]

theorem call_trace (l : Live W T) (call : ModuleCall) :
    (l.call call).2.host.trace = l.host.trace ++ [.call call (l.call call).1] := rfl

theorem call_session (l : Live W T) (call : ModuleCall) : ∃ f, (l.call call).2.session = l.session.touch f :=
  ⟨_, rfl⟩

theorem call_around {c : ModuleCall} (h : Around m l)
    (hn : ∀ answer : c.Answer T, (Occurrence.call c answer).Neutral) : Around m (l.call c).2 :=
  h.trans ⟨⟨_, l.call_trace c, by simpa using hn _⟩, l.call_session c⟩

theorem attachPorts_around (b : TunnelBinding) (adapter : ℕ) (flow : UInt64) (ports : PendingPorts)
    (h : Around m l) : Around m (attachPorts b l adapter flow ports).2 := by
  cases ports with
  | direct =>
    exact registering_around h fun _ _ h =>
      attempt_around (call_around h fun _ => trivial) fun _ h => h
  | tcp =>
    exact registering_around h fun _ _ h => registering_around h fun _ _ h => registering_around h fun _ _ h =>
      attempt_around (call_around h fun _ => trivial) fun _ h =>
        attempt_around (call_around h fun _ => trivial) fun _ h => h
  | udp =>
    exact registering_around h fun _ _ h => registering_around h fun _ _ h => registering_around h fun _ _ h =>
      attempt_around (call_around h fun _ => trivial) fun _ h =>
        attempt_around (call_around h fun _ => trivial) fun _ h => h

theorem openPorts_around (b : TunnelBinding) (request : OpenRequest) (h : Around m l) :
    Around m (openPorts b l request).2 := by
  have htcp := call_around (l := l) (c := .stackOpenTcp (.ofRequest request)) h fun _ => trivial
  have hudp := call_around (l := l) (c := .stackOpenUdp (.ofRequest request)) h fun _ => trivial
  unfold openPorts
  split
  · split
    · exact h
    · split <;> rename_i heq <;> rw [heq] at htcp <;> exact htcp
  · split <;> rename_i heq <;> rw [heq] at hudp <;> exact hudp
  · exact h

theorem attachOpened_around (b : TunnelBinding) (pending : PendingClientFlow) (port : ClientPolicyPort)
    (h : Around m l) : Around m (attachOpened b l pending port).2 := by
  cases port with
  | direct =>
    simp only [attachOpened]
    split
    · exact h
    · exact registering_around h fun _ _ h =>
        attempt_around (call_around h fun _ => trivial) fun _ h => h
  | tcp | packetTcp | udp | packetUdp =>
    exact registering_around h fun _ _ h => registering_around h fun _ _ h =>
      attempt_around (call_around h fun _ => trivial) fun _ h => h

theorem completeFlow_around (pending : PendingClientFlow) (status : UInt32) (reason : List UInt8)
    (h : Around m l) : Around m (l.completeFlow pending status reason).2 := by
  unfold completeFlow
  split
  · exact h
  · exact call_around h fun _ => trivial

theorem clientPort_around (b : TunnelBinding) (pending : PendingClientFlow) (h : Around m l) :
    Around m (clientPort b l pending).2 := by
  have htcp := call_around (l := l) (c := .stackOpenTcp (.ofRequest pending.request)) h fun _ => trivial
  have hudp := call_around (l := l) (c := .stackOpenUdp (.ofRequest pending.request)) h fun _ => trivial
  unfold clientPort
  split
  · exact h
  · split
    · split
      · exact h
      · split <;> rename_i heq <;> rw [heq] at htcp
        · exact htcp
        · exact registering_around htcp fun _ _ h =>
            attempt_around (call_around h fun _ => trivial) fun _ h => h
    · split <;> rename_i heq <;> rw [heq] at hudp
      · exact hudp
      · exact registering_around hudp fun _ _ h =>
          attempt_around (call_around h fun _ => trivial) fun _ h => h
    · exact h

end Live
end Snolc.Engine

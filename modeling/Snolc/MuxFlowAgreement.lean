import Snolc.MuxDialogueTurns

set_option autoImplicit false

namespace Snolc.Mux
open PollIo MuxFrame WireFormat GuardedRuns ScriptedIo

namespace Dialogue
variable {T : Type} [TracedIo T] {h : Dialogue T}

structure Sound (h : Dialogue T) : Prop where
  client : h.client.role = .client ∧ ∃ sent delivered, h.client.Books sent delivered
  server : h.server.role = .server ∧ ∃ sent delivered, h.server.Books sent delivered
  joined : h.Joined

theorem Sound.step (hs : h.Sound) {label : DialogueStep T} (hr : h.Reliable label) : (h.step label).Sound := by
  obtain ⟨⟨hclient, sent₁, delivered₁, hb₁⟩, ⟨hserver, sent₂, delivered₂, hb₂⟩, -⟩ := hs
  obtain ⟨hpossible, hjoined, hok⟩ := hr
  cases label with
  | client io turn =>
    have hwire : h.server.connection.sentBytes <+: flat sent₂ := ⟨_, hb₂.outbox.wire⟩
    obtain ⟨sent, delivered, hbooks⟩ := hb₁.withIo hpossible
    exact ⟨⟨(Party.act_role _ turn).trans hclient, hbooks.act hb₂.uniform turn (hjoined.1.trans hwire) hok⟩,
      ⟨hserver, sent₂, delivered₂, hb₂⟩, hjoined⟩
  | server io turn =>
    have hwire : h.client.connection.sentBytes <+: flat sent₁ := ⟨_, hb₁.outbox.wire⟩
    obtain ⟨sent, delivered, hbooks⟩ := hb₂.withIo hpossible
    exact ⟨⟨hclient, sent₁, delivered₁, hb₁⟩,
      ⟨(Party.act_role _ turn).trans hserver, hbooks.act hb₁.uniform turn (hjoined.2.trans hwire) hok⟩, hjoined⟩

theorem new_books {io : T} (hio : Handshake.Unused io) (role : Mode) {config : YamuxConfig}
    (hsplit : config.splitSendSize < 2 ^ 32) : (Party.new io role config).Books [] fun _ => [] := by
  obtain ⟨hout, hl, hfed⟩ := Handshake.new_fed hio role config
  exact ⟨hout, hl, by simp [Uniform], hsplit, hfed, List.nodup_nil, by simp [Party.new, MuxSession.new],
    fun _ _ => rfl, fun _ _ => ⟨rfl, rfl, rfl, rfl⟩, fun _ => .blank role⟩

/-- What a side has read on a stream is what the other side has begun to write there. -/
theorem heard_said {p q : Party T} {sent sent' : List Frame} {delivered delivered' : StreamId → List UInt8}
    (hp : p.Books sent delivered) (hq : q.Books sent' delivered') (hrole : q.role = p.role.peer)
    (hpipe : p.connection.takenBytes <+: q.connection.sentBytes) {id : StreamId} {word : Word}
    (hword : p.heard id = some word) : q.said id = some word := by
  obtain ⟨hby, frame, hframe, hfront⟩ := (hp.lines id).reads word hword
  have hwire : q.connection.sentBytes <+: flat sent' := ⟨_, hq.outbox.wire⟩
  have hwithin := hp.fed.within hq.uniform (hpipe.trans hwire) id
  have hwords := (hq.lines id).words
  rw [hrole] at hwords
  exact (hq.lines id).speech.spoken.word hwords hby hframe (hfront.trans hwithin)

structure Agrees (h : Dialogue T) : Prop where
  server : ∀ id word, h.server.heard id = some word → h.client.said id = some word
  client : ∀ id word, h.client.heard id = some word → h.server.said id = some word
  family : ∀ id name, h.client.heard id = some (.policy name) → h.client.said id = some (.policy name)
  flow : ∀ id answer, h.client.heard id = some (.response answer) →
    ∃ request, h.client.said id = some (.request request) ∧ h.server.heard id = some (.request request)

theorem Sound.agrees (hs : h.Sound) : h.Agrees := by
  obtain ⟨⟨hclient, sent₁, delivered₁, hb₁⟩, ⟨hserver, sent₂, delivered₂, hb₂⟩, hjoined⟩ := hs
  have hfromClient (id : StreamId) (word : Word) (hword : h.server.heard id = some word) :
      h.client.said id = some word :=
    heard_said hb₂ hb₁ (by rw [hclient, hserver]; rfl) hjoined.2 hword
  have hfromServer (id : StreamId) (word : Word) (hword : h.client.heard id = some word) :
      h.server.said id = some word :=
    heard_said hb₁ hb₂ (by rw [hclient, hserver]; rfl) hjoined.1 hword
  refine ⟨hfromClient, hfromServer, fun id name hname => ?_, fun id answer hanswer => ?_⟩
  · exact hfromClient id _ ((hb₂.lines id).answers _ hserver (hfromServer id _ hname))
  · obtain ⟨request, hrequest⟩ := (hb₂.lines id).answers _ hserver (hfromServer id _ hanswer)
    exact ⟨request, hfromClient id _ hrequest, hrequest⟩

end Dialogue

/-- However the two sides take turns and whatever else they send, a family, a request or a response that is read on a
stream is the one that was written there, and a client that reads a response has the answer to the very request that it
made on the stream and that the server read. -/
theorem flow_opening_agrees {T : Type} [TracedIo T] {io₁ io₂ : T} (h₁ : Handshake.Unused io₁)
    (h₂ : Handshake.Unused io₂) (config₁ config₂ : YamuxConfig) (hsplit₁ : config₁.splitSendSize < 2 ^ 32)
    (hsplit₂ : config₂.splitSendSize < 2 ^ 32) (labels : List (DialogueStep T))
    (h : Guarded Dialogue.step Dialogue.Reliable (Dialogue.start io₁ io₂ config₁ config₂) labels) :
    (run Dialogue.step (Dialogue.start io₁ io₂ config₁ config₂) labels).Agrees := by
  refine (run_invariant Dialogue.Sound (fun _ _ hs hr => hs.step hr) ?_ h).agrees
  refine ⟨⟨rfl, _, _, Dialogue.new_books h₁ .client hsplit₁⟩, ⟨rfl, _, _, Dialogue.new_books h₂ .server hsplit₂⟩, ?_⟩
  constructor
  · change TracedIo.received io₁ <+: TracedIo.written io₂
    rw [h₁.received]
    exact List.nil_prefix
  · change TracedIo.received io₂ <+: TracedIo.written io₁
    rw [h₂.received]
    exact List.nil_prefix

namespace Dialogue

def failed : Poll (Except MuxError Unit) → Bool
  | .ready (.error (.io _)) => true
  | _ => false

theorem failed_eq_false {r : Poll (Except MuxError Unit)} :
    failed r = false ↔ ∀ e, r ≠ .ready (.error (.io e)) := by
  rcases r with (e | _) | _
  · cases e <;> simp [failed]
  · simp [failed]
  · simp [failed]

instance (h : Dialogue Script) : Decidable h.Joined := inferInstanceAs (Decidable (_ ∧ _))

instance (p : Party Script) (io : Script) : Decidable (Continues p io) := inferInstanceAs (Decidable (_ ∧ _))

instance (h : Dialogue Script) : (label : DialogueStep Script) → Decidable (h.Possible label)
  | .client _ _ | .server _ _ => inferInstanceAs (Decidable (Continues _ _))

theorem reliable_iff (h : Dialogue Script) (label : DialogueStep Script) :
    (h.Possible label ∧ (h.step label).Joined ∧ failed (h.outcome label) = false) ↔ h.Reliable label :=
  ⟨fun ⟨hp, hj, hf⟩ => ⟨hp, hj, failed_eq_false.mp hf⟩, fun hr => ⟨hr.1, hr.2, failed_eq_false.mpr hr.3⟩⟩

instance (h : Dialogue Script) (label : DialogueStep Script) : Decidable (h.Reliable label) :=
  decidable_of_iff _ (reliable_iff h label)

def ready (p peer : Party Script) : Script where
  incoming := peer.connection.sentBytes.drop p.connection.takenBytes.length
  received := p.connection.takenBytes
  written := p.connection.sentBytes

def exchange : List (Mode × Turn) → Dialogue Script → List (DialogueStep Script)
  | [], _ => []
  | (.client, turn) :: turns, h =>
    let label := DialogueStep.client (ready h.client h.server) turn
    label :: exchange turns (h.step label)
  | (.server, turn) :: turns, h =>
    let label := DialogueStep.server (ready h.server h.client) turn
    label :: exchange turns (h.step label)

def sampleStart : Dialogue Script := start {} {} ⟨16, 4194304, 16384⟩ ⟨16, 4194304, 16384⟩

def sampleRequest (port : UInt16) : OpenRequest := ⟨.udp, .domain "a.b", port, [7]⟩

/-- Two flows are opened at once, and the server answers the second one first. -/
def sampleTurns : List (Mode × Turn) :=
  [(.client, .beginOpenFlowConfirmed (sampleRequest 53)), (.client, .beginOpenFlowConfirmed (sampleRequest 54)),
    (.client, .poll 1), (.client, .poll 3), (.server, .acceptFlow), (.server, .acceptFlow), (.server, .poll 1),
    (.server, .drive), (.server, .acceptFlow), (.server, .poll 3), (.server, .respondFlow 3 ⟨.denied, "no"⟩),
    (.server, .poll 3), (.client, .poll 1), (.client, .poll 3)]

end Dialogue

theorem sample_opening_agrees :
    let labels := Dialogue.exchange Dialogue.sampleTurns Dialogue.sampleStart
    let h := run Dialogue.step Dialogue.sampleStart labels
    h.client.heard 3 = some (.response ⟨.denied, "no"⟩) ∧ h.client.heard 1 = none ∧
      h.server.heard 3 = some (.request (Dialogue.sampleRequest 54)) ∧ h.Agrees :=
  ⟨by decide +kernel, by decide +kernel, by decide +kernel,
    flow_opening_agrees ⟨rfl, rfl⟩ ⟨rfl, rfl⟩ ⟨16, 4194304, 16384⟩ ⟨16, 4194304, 16384⟩ (by decide) (by decide)
      (Dialogue.exchange Dialogue.sampleTurns Dialogue.sampleStart) (by decide +kernel)⟩

end Snolc.Mux

import Snolc.EngineControl
import Snolc.ControlRoundTrip

set_option autoImplicit false

namespace Snolc.Control
open PollIo

theorem Connection.poll_request {c c' : Connection} {limit : ℕ} {io : StreamIo} {request : String × List UInt8}
    (h : c.poll limit io = (.ok (some request), c')) : c.state = .reading ∧ c' = ⟨[], .dispatched⟩ := by
  unfold Connection.poll at h
  split at h
  · rename_i hstate
    refine ⟨hstate, ?_⟩
    unfold Connection.readRequest at h
    split at h
    · cases h
    · split at h
      · cases h
      · split at h
        · cases h
        · cases h
        · cases h
          rfl
  · cases h
  · cases h
  · cases h
  · split at h <;> cases h

theorem UnixControlServer.requestOf_connection {id : ℕ} {polled : Connection.Polled} {r : LocalRequest}
    (h : requestOf id polled = some r) : r.connection = id := by
  unfold requestOf at h
  split at h
  · cases h
    rfl
  · cases h

theorem UnixControlServer.get_reject (server : UnixControlServer) (c : ℕ) (error : String) (id : ℕ) :
    KeyedList.get (server.reject c error).connections id =
      if id = c then
        (KeyedList.get server.connections id).map fun connection =>
          connection.response server.limit.bytes (.error error)
      else KeyedList.get server.connections id :=
  KeyedList.get_modify server.connections c
    (fun connection => connection.response server.limit.bytes (.error error)) id

/-- The server against the requests that came over it: a connection that asked does not read
    again, and one that is owed an answer waits for it. -/
structure Sockets (server : UnixControlServer) (asked waiting : List ControlSender) : Prop where
  sound : server.Sound
  numbered : 0 < server.nextConnection
  asked : ∀ c, .connection c ∈ asked → c < server.nextConnection ∧
    ∀ input, KeyedList.get server.connections c ≠ some ⟨input, .reading⟩
  waiting : ∀ c, .connection c ∈ waiting → ∃ input, KeyedList.get server.connections c = some ⟨input, .waiting none⟩

namespace Sockets
variable {server : UnixControlServer} {asked waiting : List ControlSender}

theorem modify (h : Sockets server asked waiting) (c : ℕ) {f : Connection → Connection}
    (hf : ∀ connection, (f connection).state = .reading → connection.state = .reading) {waiting' : List ControlSender}
    (hsub : waiting' ⊆ waiting) (hnot : .connection c ∉ waiting') :
    Sockets { server with connections := KeyedList.modify server.connections c f } asked waiting' := by
  obtain ⟨hsound, hknown, _⟩ := UnixControlServer.modify_keeps h.sound h.numbered c f
  refine ⟨hsound, hknown, fun k hk => ⟨(h.asked k hk).1, fun input hreads => ?_⟩, fun k hk => ?_⟩
  · have hreads : KeyedList.get (KeyedList.modify server.connections c f) k = some ⟨input, .reading⟩ := hreads
    rw [KeyedList.get_modify] at hreads
    split at hreads
    · obtain ⟨connection, hget, hconnection⟩ := Option.map_eq_some_iff.mp hreads
      have hstate := hf connection (by rw [hconnection])
      exact (h.asked k hk).2 connection.input (by rw [hget, ← hstate])
    · exact (h.asked k hk).2 input hreads
  · have hne : k ≠ c := by
      rintro rfl
      exact hnot hk
    obtain ⟨input, hget⟩ := h.waiting k (hsub hk)
    exact ⟨input, (KeyedList.get_modify server.connections c f k).trans ((if_neg hne).trans hget)⟩

theorem answered (h : Sockets server asked waiting) (c : ℕ) (answer : Answer) {waiting' : List ControlSender}
    (hsub : waiting' ⊆ waiting) (hnot : .connection c ∉ waiting') :
    Sockets (server.answered c answer) asked waiting' := by
  refine h.modify c (fun connection hstate => ?_) hsub hnot
  unfold Connection.answered at hstate
  split at hstate
  · cases hstate
  · exact hstate

theorem reject (h : Sockets server asked waiting) (c : ℕ) (error : String) (hnot : .connection c ∉ waiting) :
    Sockets (server.reject c error) asked waiting :=
  h.modify c (fun _ hstate => by cases hstate) (List.Subset.refl _) hnot

theorem waitFor (h : Sockets server asked waiting) {c : ℕ}
    (hget : KeyedList.get server.connections c = some ⟨[], .dispatched⟩) :
    Sockets (server.waitFor c) asked (waiting ++ [.connection c]) := by
  have hnot : .connection c ∉ waiting := by
    intro hin
    obtain ⟨input, hwaits⟩ := h.waiting c hin
    rw [hget] at hwaits
    cases hwaits
  have hsame := h.modify c (f := Connection.waitFor) (fun connection hstate => by
    unfold Connection.waitFor at hstate
    split at hstate
    · cases hstate
    · exact hstate) (List.Subset.refl _) hnot
  refine ⟨hsame.sound, hsame.numbered, hsame.asked, fun k hk => ?_⟩
  rcases List.mem_append.mp hk with hk | hk
  · exact hsame.waiting k hk
  · obtain rfl : k = c := by simpa using hk
    refine ⟨[], (KeyedList.get_modify server.connections k _ k).trans ?_⟩
    rw [if_pos rfl, hget]
    rfl

theorem accept (h : Sockets server asked waiting) (incoming : List Bool) :
    Sockets (server.accept incoming) asked waiting := by
  have hkeeps := fun {id : ℕ} (hid : id < server.nextConnection) => UnixControlServer.accept_keeps h.sound hid incoming
  refine ⟨(hkeeps h.numbered).1.sound, (hkeeps h.numbered).1.known, fun c hc => ?_, fun c hc => ?_⟩
  · obtain ⟨hknown, hreads⟩ := h.asked c hc
    rw [(hkeeps hknown).2]
    exact ⟨(hkeeps hknown).1.known, hreads⟩
  · obtain ⟨input, hget⟩ := h.waiting c hc
    have hknown := h.sound.known c (KeyedList.key_mem (KeyedList.mem_of_get hget))
    exact ⟨input, (hkeeps hknown).2.trans hget⟩

/-- What a poll of the connections hands out comes from connections that had not asked. -/
structure Hands (asked : List ControlSender) (server' : UnixControlServer) (handed : List LocalRequest) : Prop where
  once : (handed.map LocalRequest.connection).Nodup
  new : ∀ r ∈ handed, .connection r.connection ∉ asked
  dispatched : ∀ r ∈ handed, KeyedList.get server'.connections r.connection = some ⟨[], .dispatched⟩

theorem poll (h : Sockets server asked waiting) (incoming : List Bool) (io : ℕ → StreamIo) :
    Sockets (server.poll incoming io).2
        (asked ++ (server.poll incoming io).1.map fun r => .connection r.connection) waiting ∧
      Hands asked (server.poll incoming io).2 (server.poll incoming io).1 := by
  have ha := h.accept incoming
  unfold UnixControlServer.poll
  generalize server.accept incoming = s at ha
  dsimp only
  generalize hconnections : (s.connections.filterMap fun e =>
    (UnixControlServer.kept (e.2.poll s.limit.bytes (io e.1))).map fun c => (e.1, c)) = connections
  have hget : ∀ c, KeyedList.get connections c =
      (KeyedList.get s.connections c).bind fun connection =>
        UnixControlServer.kept (connection.poll s.limit.bytes (io c)) := by
    intro c
    rw [← hconnections]
    exact KeyedList.get_filterMap ha.sound.distinct
      (fun k connection => UnixControlServer.kept (connection.poll s.limit.bytes (io k))) c
  have hhanded : ∀ r ∈ s.connections.filterMap fun e =>
      UnixControlServer.requestOf e.1 (e.2.poll s.limit.bytes (io e.1)),
      ∃ input, KeyedList.get s.connections r.connection = some ⟨input, .reading⟩ ∧
        KeyedList.get connections r.connection = some ⟨[], .dispatched⟩ := by
    intro r hr
    obtain ⟨⟨k, connection⟩, hin, hrequest⟩ := List.mem_filterMap.mp hr
    unfold UnixControlServer.requestOf at hrequest
    split at hrequest
    · rename_i hpoll
      cases hrequest
      obtain ⟨hstate, rfl⟩ := Connection.poll_request hpoll
      have hfound := (KeyedList.get_eq_some ha.sound.distinct).mpr hin
      refine ⟨connection.input, by rw [hfound, ← hstate], ?_⟩
      rw [hget, hfound, Option.bind_some, hpoll]
      rfl
    · cases hrequest
  refine ⟨⟨⟨?_, fun k hk => ?_⟩, ha.numbered, fun c hc => ?_, fun c hc => ?_⟩, ?_, fun r hr hin => ?_, fun r hr => ?_⟩
  · rw [← hconnections]
    exact ha.sound.distinct.filterMap fun k connection => UnixControlServer.kept (connection.poll s.limit.bytes (io k))
  · rw [← hconnections] at hk
    exact ha.sound.known k ((KeyedList.keys_filterMap_sublist _ fun k connection =>
      UnixControlServer.kept (connection.poll s.limit.bytes (io k))).subset hk)
  · rcases List.mem_append.mp hc with hc | hc
    · obtain ⟨hknown, hreads⟩ := ha.asked c hc
      refine ⟨hknown, fun input hget' => ?_⟩
      rw [hget] at hget'
      obtain ⟨connection, hconnection, hkept⟩ := Option.bind_eq_some_iff.mp hget'
      have hstate := (View.kept_reading hkept).1
      exact hreads connection.input (by rw [hconnection, ← hstate])
    · obtain ⟨r, hr, heq⟩ := List.mem_map.mp hc
      obtain rfl := ControlSender.connection.inj heq
      obtain ⟨input, hfound, hdispatched⟩ := hhanded r hr
      refine ⟨ha.sound.known _ (KeyedList.key_mem (KeyedList.mem_of_get hfound)), fun input hreads => ?_⟩
      rw [hdispatched] at hreads
      cases hreads
  · obtain ⟨input, hwaits⟩ := ha.waiting c hc
    refine ⟨input, ?_⟩
    rw [hget, hwaits]
    rfl
  · exact (KeyedList.key_filterMap_sublist s.connections
      (fun k connection => UnixControlServer.requestOf k (connection.poll s.limit.bytes (io k))) LocalRequest.connection
      fun _ _ _ => UnixControlServer.requestOf_connection).nodup ha.sound.distinct
  · obtain ⟨input, hfound, _⟩ := hhanded r hr
    exact (ha.asked _ hin).2 input hfound
  · obtain ⟨_, _, hdispatched⟩ := hhanded r hr
    exact hdispatched

theorem mono (h : Sockets server asked waiting) {waiting' : List ControlSender} (hsub : waiting' ⊆ waiting) :
    Sockets server asked waiting' := ⟨h.sound, h.numbered, h.asked, fun c hc => h.waiting c (hsub hc)⟩

end Sockets

theorem Sockets.calls {server : UnixControlServer} {asked waiting : List ControlSender}
    (h : Sockets server asked waiting) {asked' waiting' : List ControlSender}
    (hasked : ∀ c, .connection c ∈ asked' → .connection c ∈ asked)
    (hwaiting : ∀ c, .connection c ∈ waiting' → .connection c ∈ waiting) : Sockets server asked' waiting' :=
  ⟨h.sound, h.numbered, fun c hc => h.asked c (hasked c hc), fun c hc => h.waiting c (hwaiting c hc)⟩

end Snolc.Control

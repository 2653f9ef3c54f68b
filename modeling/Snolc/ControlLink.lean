import Snolc.ControlSocket
import Snolc.GuardedRuns

set_option autoImplicit false

namespace Snolc.Control
open CheckedSlice GuardedRuns

namespace UnixControlServer

structure Sound (server : UnixControlServer) : Prop where
  distinct : KeyedList.Distinct server.connections
  known : ∀ k ∈ server.connections.map Prod.fst, k < server.nextConnection

structure Keeps (id : ℕ) (server server' : UnixControlServer) : Prop where
  sound : server'.Sound
  known : id < server'.nextConnection
  limit : server'.limit = server.limit

theorem accept_keeps {server : UnixControlServer} {id : ℕ} (h : server.Sound) (hid : id < server.nextConnection)
    (incoming : List Bool) :
    server.Keeps id (server.accept incoming) ∧
      KeyedList.get (server.accept incoming).connections id = KeyedList.get server.connections id := by
  induction incoming generalizing server with
  | nil => exact ⟨⟨h, hid, rfl⟩, rfl⟩
  | cons owner incoming ih =>
    rw [accept]
    split
    · split
      · split
        · exact ih h hid
        · rename_i next hnext
          obtain rfl := checkedAdd_eq_some hnext
          have hfresh : ∀ c, (server.nextConnection, c) ∉ server.connections := fun c hc =>
            Nat.lt_irrefl _ (h.known _ (KeyedList.key_mem hc))
          have hsound : ({ server with
              nextConnection := server.nextConnection + 1
              connections := KeyedList.insert server.connections server.nextConnection {} }).Sound := by
            constructor
            · dsimp only
              rw [KeyedList.insert_absent hfresh]
              exact h.distinct.cons hfresh _
            · dsimp only
              rw [KeyedList.insert_absent hfresh]
              intro k hk
              rcases List.mem_cons.mp hk with rfl | hk'
              · exact Nat.lt_succ_self _
              · exact Nat.lt_succ_of_lt (h.known k hk')
          obtain ⟨hkeeps, hget⟩ := ih hsound (Nat.lt_succ_of_lt hid)
          refine ⟨⟨hkeeps.sound, hkeeps.known, hkeeps.limit⟩, hget.trans ?_⟩
          exact KeyedList.get_insert_of_ne _ (Nat.ne_of_lt hid) _
      · exact ih h hid
    · exact ⟨⟨h, hid, rfl⟩, rfl⟩

theorem poll_keeps {server : UnixControlServer} {id : ℕ} (h : server.Sound) (hid : id < server.nextConnection)
    (incoming : List Bool) (io : ℕ → StreamIo) :
    server.Keeps id (server.poll incoming io).2 ∧
      KeyedList.get (server.poll incoming io).2.connections id =
        (KeyedList.get server.connections id).bind (fun c => kept (c.poll server.limit.bytes (io id))) ∧
      ((server.poll incoming io).1.filter fun r => decide (r.connection = id)) =
        ((KeyedList.get server.connections id).bind fun c =>
          requestOf id (c.poll server.limit.bytes (io id))).toList := by
  obtain ⟨hkeeps, hget⟩ := accept_keeps h hid incoming
  have hsound := hkeeps.sound
  rw [← hget, ← hkeeps.limit]
  refine ⟨⟨⟨?_, fun k hk => ?_⟩, hkeeps.known, hkeeps.limit⟩, ?_, ?_⟩
  · exact hsound.distinct.filterMap fun k c => kept (c.poll (server.accept incoming).limit.bytes (io k))
  · exact hsound.known k ((KeyedList.keys_filterMap_sublist _ fun k c =>
      kept (c.poll (server.accept incoming).limit.bytes (io k))).subset hk)
  · exact KeyedList.get_filterMap hsound.distinct
      (fun k c => kept (c.poll (server.accept incoming).limit.bytes (io k))) id
  · refine KeyedList.filterMap_of_key hsound.distinct
      (fun k c => requestOf k (c.poll (server.accept incoming).limit.bytes (io k))) LocalRequest.connection ?_ id
    intro k c r hr
    unfold requestOf at hr
    split at hr
    · cases hr
      rfl
    · cases hr

theorem modify_keeps {server : UnixControlServer} {id : ℕ} (h : server.Sound) (hid : id < server.nextConnection)
    (k : ℕ) (f : Connection → Connection) :
    server.Keeps id { server with connections := KeyedList.modify server.connections k f } := by
  refine ⟨⟨h.distinct.modify k f, fun k' hk' => ?_⟩, hid, rfl⟩
  obtain ⟨e, he, rfl⟩ := List.mem_map.mp hk'
  obtain ⟨e', he', heq⟩ := List.mem_map.mp he
  have hkey : e.1 = e'.1 := by
    rw [← heq]
    split <;> rfl
  rw [hkey]
  exact h.known _ (List.mem_map.mpr ⟨e', he', rfl⟩)

end UnixControlServer

structure View where
  client : Client
  toServer : List UInt8
  toClient : List UInt8
  connection : Option Connection
  emitted : List LocalRequest
  given : Option Answer

def Link.view (id : ℕ) (s : Link) : View :=
  ⟨s.client, s.toServer, s.toClient, s.connection id, s.emitted.filter fun r => decide (r.connection = id), s.given⟩

namespace View

def write (v : View) (count : ℕ) : View :=
  let result := Link.written v.client v.toServer count v.connection
  { v with client := result.1, toServer := result.2 }

def read (maxResponse : ℕ) (v : View) (count : ℕ) : View :=
  let result := Link.received maxResponse v.client v.toClient count v.connection
  { v with client := result.1, toClient := result.2 }

def poll (id limit : ℕ) (v : View) (chunks : List (ℕ × ℕ)) (written : ℕ) : View :=
  let io := Link.streamIo v.client v.toServer chunks written v.connection
  { v with
    client := io.2.1
    toServer := io.2.2.1
    toClient := v.toClient ++ io.2.2.2
    connection := v.connection.bind fun c => UnixControlServer.kept (c.poll limit io.1)
    emitted := v.emitted ++
      (v.connection.bind fun c => UnixControlServer.requestOf id (c.poll limit io.1)).toList }

def begin (limit : ℕ) (v : View) (refusal : Option String) : View :=
  match v.connection with
  | some ⟨input, .dispatched⟩ =>
    match refusal with
    | none => { v with connection := some ⟨input, .waiting none⟩ }
    | some error =>
      { v with
        connection := some ⟨input, .writing (responseFrame limit (.error error)) 0⟩
        given := some (.failed error) }
  | _ => v

def answer (v : View) (answer : Answer) : View :=
  match v.connection with
  | some ⟨input, .waiting none⟩ => { v with connection := some ⟨input, .waiting (some answer)⟩, given := some answer }
  | _ => v

def step (id limit maxResponse : ℕ) (v : View) : LinkStep → View
  | .write count => v.write count
  | .read count => v.read maxResponse count
  | .poll _ chunks written _ => v.poll id limit chunks written
  | .begin connection refusal => if connection = id then v.begin limit refusal else v
  | .answer connection answer => if connection = id then v.answer answer else v

end View

/-- The server has accepted the connection, and goes by the limit. -/
structure Link.Serves (id : ℕ) (limit : Limit) (s : Link) : Prop where
  sound : s.server.Sound
  known : id < s.server.nextConnection
  limit : s.server.limit = limit

namespace Link
variable {id : ℕ} {limit : Limit} {s : Link}

theorem Serves.of_keeps (h : s.Serves id limit) {s' : Link} (hk : s.server.Keeps id s'.server) : s'.Serves id limit :=
  ⟨hk.sound, hk.known, hk.limit.trans h.limit⟩

theorem view_poll (h : s.Serves id limit) (incoming : List Bool) (chunks : List (ℕ × ℕ)) (written : ℕ)
    (others : ℕ → StreamIo) :
    (s.poll id incoming chunks written others).view id = (s.view id).poll id limit.bytes chunks written ∧
      (s.poll id incoming chunks written others).Serves id limit := by
  obtain ⟨hkeeps, hget, hrequests⟩ := UnixControlServer.poll_keeps h.sound h.known incoming
    fun j => if j = id then (streamIo s.client s.toServer chunks written (s.connection id)).1 else others j
  rw [if_pos rfl, h.limit] at hget hrequests
  refine ⟨?_, h.of_keeps hkeeps⟩
  unfold view View.poll poll
  dsimp only
  rw [List.filter_append, hrequests]
  simp only [connection] at hget ⊢
  rw [hget]

theorem view_modify (h : s.Serves id limit) (k : ℕ) (f : Connection → Connection) (given : Option Answer) :
    let s' := { s with server := { s.server with connections := KeyedList.modify s.server.connections k f }, given }
    s'.view id = { s.view id with
      connection := if k = id then (s.connection id).map f else s.connection id, given } ∧ s'.Serves id limit := by
  refine ⟨?_, h.of_keeps (UnixControlServer.modify_keeps h.sound h.known k f)⟩
  simp only [view, connection, KeyedList.get_modify]
  by_cases hk : k = id
  · simp [hk]
  · simp [hk, Ne.symm hk]

theorem view_begin (h : s.Serves id limit) (k : ℕ) (refusal : Option String) :
    (s.begin id k refusal).view id = (if k = id then (s.view id).begin limit.bytes refusal else s.view id) ∧
      (s.begin id k refusal).Serves id limit := by
  unfold begin
  split
  · rename_i input hc
    cases refusal with
    | none =>
      obtain ⟨hview, hserves⟩ := view_modify h k Connection.waitFor s.given
      refine ⟨hview.trans ?_, hserves⟩
      by_cases hk : k = id
      · subst hk
        simp [View.begin, view, hc, Connection.waitFor]
      · simp [hk, view]
    | some error =>
      obtain ⟨hview, hserves⟩ := view_modify h k (fun c => c.response s.server.limit.bytes (.error error))
        (if k = id then some (.failed error) else s.given)
      refine ⟨hview.trans ?_, hserves⟩
      by_cases hk : k = id
      · subst hk
        simp [View.begin, view, hc, Connection.response, h.limit]
      · simp [hk, view]
  · rename_i hc
    refine ⟨?_, h⟩
    split
    · rename_i hk
      subst hk
      unfold View.begin
      split
      · rename_i input hd
        exact absurd hd (hc input)
      · rfl
    · rfl

theorem view_answer (h : s.Serves id limit) (k : ℕ) (answer : Answer) :
    (s.answer id k answer).view id = (if k = id then (s.view id).answer answer else s.view id) ∧
      (s.answer id k answer).Serves id limit := by
  unfold Link.answer
  split
  · rename_i input hc
    obtain ⟨hview, hserves⟩ := view_modify h k (Connection.answered answer) (if k = id then some answer else s.given)
    refine ⟨hview.trans ?_, hserves⟩
    by_cases hk : k = id
    · subst hk
      simp [View.answer, view, hc, Connection.answered]
    · simp [hk, view]
  · rename_i hc
    refine ⟨?_, h⟩
    split
    · rename_i hk
      subst hk
      unfold View.answer
      split
      · rename_i input hd
        exact absurd hd (hc input)
      · rfl
    · rfl

/-- The link as the connection sees it goes its own steps. -/
theorem view_step (h : s.Serves id limit) (maxResponse : ℕ) (label : LinkStep) :
    (s.step id maxResponse label).view id = (s.view id).step id limit.bytes maxResponse label ∧
      (s.step id maxResponse label).Serves id limit := by
  cases label with
  | write count => exact ⟨rfl, h.sound, h.known, h.limit⟩
  | read count => exact ⟨rfl, h.sound, h.known, h.limit⟩
  | poll incoming chunks written others => exact view_poll h incoming chunks written others
  | begin k refusal => exact view_begin h k refusal
  | answer k answer => exact view_answer h k answer

theorem view_run (h : s.Serves id limit) (maxResponse : ℕ) (labels : List LinkStep) :
    (run (step id maxResponse) s labels).view id = run (View.step id limit.bytes maxResponse) (s.view id) labels ∧
      (run (step id maxResponse) s labels).Serves id limit := by
  induction labels generalizing s with
  | nil => exact ⟨rfl, h⟩
  | cons label labels ih =>
    obtain ⟨hview, hserves⟩ := view_step h maxResponse label
    rw [run_cons, run_cons, ← hview]
    exact ih hserves

end Link
end Snolc.Control

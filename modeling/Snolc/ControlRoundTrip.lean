import Snolc.ControlFrames
import Snolc.ControlLink

set_option autoImplicit false

namespace Snolc.Control
open ByteOrder WireFormat CheckedSlice GuardedRuns

/-- A call of the client that passes its checks, against a server whose limit it has room for. -/
structure Exchange where
  limit : Limit
  name : String
  request : List UInt8
  maxResponse : ℕ
  legal : LegalRequest limit.bytes name request
  room : limit.bytes ≤ maxResponse

namespace Exchange

def status (x : Exchange) (answer : Answer) : UInt8 := (responsePayload x.limit.bytes answer.response).1
def payload (x : Exchange) (answer : Answer) : List UInt8 := (responsePayload x.limit.bytes answer.response).2
def frame (x : Exchange) (answer : Answer) : List UInt8 := responseFrame x.limit.bytes answer.response

def request? (x : Exchange) (id : ℕ) : LocalRequest := ⟨id, x.name, x.request⟩

def head (x : Exchange) (answer : Answer) : List UInt8 := x.status answer :: toBytes 4 (x.payload answer).length

variable (x : Exchange) (answer : Answer)

theorem frame_eq : x.frame answer = x.head answer ++ x.payload answer := rfl

theorem head_length : (x.head answer).length = responseHeaderBytes := by
  simp [head, responseHeaderBytes]

theorem payload_le : (x.payload answer).length ≤ x.limit.bytes := payload_length _ _

theorem frame_length : (x.frame answer).length = responseHeaderBytes + (x.payload answer).length := by
  rw [frame_eq, List.length_append, head_length]

theorem head_size : ofBytes ((x.head answer).drop 1) = (x.payload answer).length := by
  have hle := x.payload_le answer
  have hsmall := x.limit.small
  exact ofBytes_toBytes_of_lt (by omega)

end Exchange

namespace Client

def unsent : Client → List UInt8
  | .sending rest => rest
  | _ => []

def Sends (client : Client) : Prop := (∃ rest, rest ≠ [] ∧ client = .sending rest) ∨ client = .header []

theorem Sends.ext {client client' : Client} (h : client.Sends) (h' : client'.Sends)
    (heq : client.unsent = client'.unsent) : client = client' := by
  rcases h with ⟨rest, hrest, rfl⟩ | rfl <;> rcases h' with ⟨rest', hrest', rfl⟩ | rfl
  · exact congrArg Client.sending heq
  · exact absurd heq hrest
  · exact absurd heq.symm hrest'
  · rfl

theorem Sends.header {client : Client} (h : client.Sends) (hsent : client.unsent = []) : client = .header [] :=
  h.ext (.inr rfl) hsent

theorem Sends.write {client : Client} (h : client.Sends) (count : ℕ) :
    (client.write count).2.Sends ∧ (client.write count).1 ++ (client.write count).2.unsent = client.unsent := by
  rcases h with ⟨rest, hrest, rfl⟩ | rfl
  · unfold Client.write
    dsimp only
    split
    · exact ⟨.inr rfl, List.append_nil _⟩
    · rename_i hmore
      refine ⟨.inl ⟨_, ?_, rfl⟩, List.take_append_drop _ _⟩
      rw [Ne, List.drop_eq_nil_iff]
      exact hmore
  · exact ⟨.inr rfl, rfl⟩

end Client

/-- The reads of a poll take what was sent in its order. -/
theorem pump_spec {client : Client} (h : client.Sends) (chunks : List (ℕ × ℕ)) (pipe : List UInt8) :
    Arrives (Link.pump chunks client pipe).1 ∧ (Link.pump chunks client pipe).2.1.Sends ∧
      readBytes (Link.pump chunks client pipe).1 ++ (Link.pump chunks client pipe).2.2 ++
        (Link.pump chunks client pipe).2.1.unsent = pipe ++ client.unsent ∧
      (Link.pump chunks client pipe).2.1.unsent.length ≤ client.unsent.length := by
  induction chunks generalizing client pipe with
  | nil => exact ⟨fun r hr => absurd hr List.not_mem_nil, h, rfl, Nat.le_refl _⟩
  | cons chunk chunks ih =>
    obtain ⟨sent, count⟩ := chunk
    obtain ⟨hsends, hsplit⟩ := h.write sent
    have hshort : (client.write sent).2.unsent.length ≤ client.unsent.length := by
      rw [← hsplit, List.length_append]
      omega
    have hopen : client.isReturned = false := by
      rcases h with ⟨rest, -, rfl⟩ | rfl <;> rfl
    rw [Link.pump]
    dsimp only
    split
    · rename_i hempty
      rw [hopen]
      refine ⟨fun r hr => .inl (List.mem_singleton.mp hr), hsends, ?_, hshort⟩
      change [] ++ (pipe ++ (client.write sent).1) ++ (client.write sent).2.unsent = _
      rw [List.nil_append, List.append_assoc, hsplit]
    · rename_i hfull
      have hsize : 0 < min (max count 1) 4096 := by omega
      obtain ⟨harrives, hrest, hpipe, hshort'⟩ :=
        ih hsends ((pipe ++ (client.write sent).1).drop (min (max count 1) 4096))
      refine ⟨fun r hr => ?_, hrest, ?_, Nat.le_trans hshort' hshort⟩
      · rcases List.mem_cons.mp hr with rfl | hr'
        · refine .inr ⟨_, fun hnil => hfull ?_, rfl⟩
          rcases List.take_eq_nil_iff.mp hnil with hzero | hnil'
          · omega
          · exact hnil'
        · exact harrives r hr'
      · rw [readBytes, List.append_assoc, List.append_assoc, ← List.append_assoc (readBytes _), hpipe,
          ← List.append_assoc, List.take_append_drop, List.append_assoc, hsplit]

/-- What the client has of a response of which `written` has been written, and what is on its way. -/
inductive Reads (x : Exchange) (answer : Answer) (written : List UInt8) : Client → List UInt8 → Prop where
  | header {got toClient : List UInt8} (short : got.length < responseHeaderBytes) (h : got ++ toClient = written) :
      Reads x answer written (.header got) toClient
  | payload {got toClient : List UInt8} (short : got.length < (x.payload answer).length)
      (h : x.head answer ++ got ++ toClient = written) :
      Reads x answer written (.payload (x.status answer) (x.payload answer).length got) toClient
  | returned (h : written = x.frame answer) :
      Reads x answer written (.returned (Client.decode (x.status answer) (x.payload answer))) []

namespace Reads
variable {x : Exchange} {answer : Answer} {written : List UInt8} {client : Client} {toClient : List UInt8}

theorem extend (h : Reads x answer written client toClient) (hopen : client.isReturned = false) (more : List UInt8) :
    Reads x answer (written ++ more) client (toClient ++ more) := by
  cases h with
  | header short h => exact .header short (by rw [← List.append_assoc, h])
  | payload short h => exact .payload short (by rw [← List.append_assoc, h])
  | returned h => cases hopen

theorem not_returned (h : Reads x answer written client toClient) (hpart : written ≠ x.frame answer) :
    client.isReturned = false := by
  cases h with
  | header short h => rfl
  | payload short h => rfl
  | returned h => exact absurd h hpart

theorem wanted_ne (h : Reads x answer written client toClient) (hopen : client.isReturned = false) :
    client.wanted ≠ 0 := by
  cases h with
  | header short h => exact Nat.sub_ne_zero_of_lt short
  | payload short h => exact Nat.sub_ne_zero_of_lt short
  | returned h => cases hopen

theorem returned_of_read (h : Reads x answer (x.frame answer) client []) :
    client = .returned (Client.decode (x.status answer) (x.payload answer)) := by
  cases h with
  | header short h =>
    rw [List.append_nil] at h
    have hlength := congrArg List.length h
    rw [x.frame_length] at hlength
    omega
  | payload short h =>
    rw [List.append_nil, x.frame_eq] at h
    have hlength := congrArg List.length h
    rw [List.length_append, List.length_append] at hlength
    omega
  | returned h => rfl

theorem receive (h : Reads x answer written client toClient) (hpart : written <+: x.frame answer) {size : ℕ}
    (hsize : size ≤ client.wanted) (hwanted : client.wanted ≠ 0) :
    Reads x answer written (client.receive x.maxResponse (toClient.take size)) (toClient.drop size) := by
  obtain ⟨rest, hrest⟩ := hpart
  cases h with
  | @header got toClient short h =>
    have hsplit : got ++ toClient.take size ++ toClient.drop size = written := by
      rw [List.append_assoc, List.take_append_drop, h]
    unfold Client.receive
    dsimp only
    split
    · rename_i hshort
      exact .header hshort hsplit
    · rename_i hfull
      -- the header is complete
      have hexact : (got ++ toClient.take size).length = (x.head answer).length := by
        have hle : (toClient.take size).length ≤ size := List.length_take_le _ _
        have hroom : size ≤ responseHeaderBytes - got.length := hsize
        rw [x.head_length]
        rw [List.length_append] at hfull ⊢
        omega
      have hhead : got ++ toClient.take size = x.head answer := by
        rw [← hsplit, List.append_assoc, x.frame_eq] at hrest
        exact (List.append_inj hrest hexact).1
      rw [hhead, x.head_size, if_neg (Nat.not_lt.mpr (Nat.le_trans (x.payload_le answer) x.room))]
      rw [hhead] at hsplit
      split
      · rename_i hzero
        have hnone : x.payload answer = [] := List.eq_nil_of_length_eq_zero hzero
        have hframe := x.frame_eq answer
        rw [hnone, List.append_nil] at hframe
        rw [← hsplit, hframe, List.append_assoc] at hrest
        have hempty : toClient.drop size = [] := by
          have hlength := congrArg List.length hrest
          rw [List.length_append, List.length_append] at hlength
          exact List.eq_nil_of_length_eq_zero (by omega)
        rw [hempty] at hsplit ⊢
        have hwritten : written = x.frame answer := by rw [← hsplit, List.append_nil, hframe]
        have hreturned : Reads x answer written _ [] := .returned hwritten
        rw [hnone] at hreturned
        exact hreturned
      · rename_i hpos
        refine .payload (Nat.pos_of_ne_zero hpos) ?_
        rw [List.append_nil, hsplit]
  | @payload got toClient short h =>
    have hsplit : x.head answer ++ (got ++ toClient.take size) ++ toClient.drop size = written := by
      rw [← List.append_assoc (x.head answer), List.append_assoc, List.take_append_drop, h]
    unfold Client.receive
    dsimp only
    split
    · rename_i hshort
      exact .payload hshort hsplit
    · rename_i hfull
      have hexact : (got ++ toClient.take size).length = (x.payload answer).length := by
        have hle : (toClient.take size).length ≤ size := List.length_take_le _ _
        have hroom : size ≤ (x.payload answer).length - got.length := hsize
        rw [List.length_append] at hfull ⊢
        omega
      rw [← hsplit, List.append_assoc, List.append_assoc, x.frame_eq, List.append_cancel_left_eq] at hrest
      obtain ⟨hpayload, hempty⟩ := List.append_inj (hrest.trans (List.append_nil _).symm) hexact
      have hnone := (List.append_eq_nil_iff.mp hempty).1
      rw [hpayload, hnone] at hsplit ⊢
      refine .returned ?_
      rw [← hsplit, List.append_nil, x.frame_eq]
  | returned h => exact absurd rfl hwanted

end Reads

inductive Phase (x : Exchange) (id : ℕ) : View → Prop where
  | reading {client : Client} {input toServer : List UInt8} (sends : client.Sends)
      (h : input ++ (toServer ++ client.unsent) = encodeRequest x.name x.request)
      (more : toServer ++ client.unsent ≠ []) :
      Phase x id ⟨client, toServer, [], some ⟨input, .reading⟩, [], none⟩
  | dispatched : Phase x id ⟨.header [], [], [], some ⟨[], .dispatched⟩, [x.request? id], none⟩
  | waiting (received : Option Answer) :
      Phase x id ⟨.header [], [], [], some ⟨[], .waiting received⟩, [x.request? id], received⟩
  | writing {client : Client} {toClient : List UInt8} {answer : Answer} {offset : ℕ}
      (h : offset < (x.frame answer).length) (reads : Reads x answer ((x.frame answer).take offset) client toClient) :
      Phase x id ⟨client, [], toClient, some ⟨[], .writing (x.frame answer) offset⟩, [x.request? id], some answer⟩
  | closed {client : Client} {toClient : List UInt8} {answer : Answer}
      (reads : Reads x answer (x.frame answer) client toClient) :
      Phase x id ⟨client, [], toClient, none, [x.request? id], some answer⟩

/-- What is left to be done, in bytes to be moved and states to be passed. -/
def View.measure (limit : ℕ) (v : View) : ℕ :=
  match v.connection with
  | some ⟨_, .reading⟩ => 2 * v.client.unsent.length + v.toServer.length + (2 * limit + 16)
  | some ⟨_, .dispatched⟩ => 2 * limit + 15
  | some ⟨_, .waiting none⟩ => 2 * limit + 14
  | some ⟨_, .waiting (some _)⟩ => 2 * limit + 13
  | some ⟨_, .writing frame offset⟩ => 2 * (frame.length - offset) + v.toClient.length + 1
  | none => v.toClient.length

/-- A step keeps the phase, and brings the exchange on where it changes anything. -/
structure Phase.Goes (x : Exchange) (id : ℕ) (v v' : View) : Prop where
  phase : Phase x id v'
  lower : v' = v ∨ v'.measure x.limit.bytes < v.measure x.limit.bytes

namespace Phase
variable {x : Exchange} {id : ℕ}

theorem Goes.same {v v' : View} (h : Phase x id v) (heq : v' = v) : Goes x id v v' := by
  subst heq
  exact ⟨h, .inl rfl⟩

theorem write {v : View} (h : Phase x id v) (count : ℕ) : Goes x id v (v.write count) := by
  cases h with
  | @reading client input toServer sends h more =>
    obtain ⟨hsends, hsplit⟩ := sends.write count
    have hall : toServer ++ (client.write count).1 ++ (client.write count).2.unsent = toServer ++ client.unsent := by
      rw [List.append_assoc, hsplit]
    have hnext : Phase x id ⟨(client.write count).2, toServer ++ (client.write count).1, [], some ⟨input, .reading⟩,
        [], none⟩ := .reading hsends (by rw [hall]; exact h) (by rw [hall]; exact more)
    refine ⟨hnext, ?_⟩
    have hlength := congrArg List.length hsplit
    rw [List.length_append] at hlength
    by_cases hnone : (client.write count).1 = []
    · refine .inl ?_
      rw [hnone, List.nil_append] at hsplit
      have hsame := hsends.ext sends hsplit
      simp only [View.write, Link.written, hnone, hsame, List.append_nil]
    · have hpos := List.length_pos_iff.mpr hnone
      refine .inr ?_
      simp only [View.measure, View.write, Link.written, List.length_append]
      omega
  | dispatched => exact ⟨.dispatched, .inl rfl⟩
  | waiting received => exact ⟨.waiting received, .inl rfl⟩
  | @writing client toClient answer offset h reads =>
    have hsame : View.write ⟨client, [], toClient, some ⟨[], .writing (x.frame answer) offset⟩, [x.request? id],
        some answer⟩ count = ⟨client, [], toClient, some ⟨[], .writing (x.frame answer) offset⟩, [x.request? id],
        some answer⟩ := by
      cases reads <;> rfl
    exact .same (.writing h reads) hsame
  | @closed client toClient answer reads =>
    have hsame : View.write ⟨client, [], toClient, none, [x.request? id], some answer⟩ count =
        ⟨client, [], toClient, none, [x.request? id], some answer⟩ := by
      have hkept : ¬ (client.wanted = 0 ∧ (!client.isReturned) = true) := by
        rintro ⟨hwanted, hopen⟩
        exact reads.wanted_ne (by simpa using hopen) hwanted
      simp only [View.write, Link.written, if_neg hkept]
    exact .same (.closed reads) hsame

theorem received_reads {answer : Answer} {written toClient : List UInt8} {client : Client}
    (h : Reads x answer written client toClient) (hpart : written <+: x.frame answer) (count : ℕ)
    (c : Option Connection) (hopen : c = none → written = x.frame answer) :
    Reads x answer written (Link.received x.maxResponse client toClient count c).1
        (Link.received x.maxResponse client toClient count c).2 ∧
      (Link.received x.maxResponse client toClient count c = (client, toClient) ∨
        (Link.received x.maxResponse client toClient count c).2.length < toClient.length) := by
  unfold Link.received
  split
  · exact ⟨h, .inl rfl⟩
  · rename_i hwanted
    split
    · rename_i hempty
      subst hempty
      cases c with
      | some c => exact ⟨h, .inl rfl⟩
      | none =>
        -- a closed connection has been read to its end
        obtain rfl := hopen rfl
        rw [h.returned_of_read] at hwanted
        exact absurd rfl hwanted
    · rename_i hfull
      split
      · exact ⟨h, .inl rfl⟩
      · rename_i hsize
        have hpos := List.length_pos_iff.mpr hfull
        refine ⟨h.receive hpart (Nat.min_le_right _ _) hwanted, .inr ?_⟩
        rw [List.length_drop]
        omega

theorem read {v : View} (h : Phase x id v) (count : ℕ) : Goes x id v (v.read x.maxResponse count) := by
  cases h with
  | @reading client input toServer sends h more =>
    have hsame : Link.received x.maxResponse client [] count (some ⟨input, .reading⟩) = (client, []) := by
      rcases sends with ⟨rest, -, rfl⟩ | rfl <;> rfl
    simp only [View.read, hsame]
    exact ⟨.reading sends h more, .inl rfl⟩
  | dispatched => exact ⟨.dispatched, .inl rfl⟩
  | waiting received => exact ⟨.waiting received, .inl rfl⟩
  | @writing client toClient answer offset h reads =>
    obtain ⟨hreads, hsame | hlower⟩ := received_reads reads (List.take_prefix _ _) count
      (some ⟨[], .writing (x.frame answer) offset⟩) (fun hn => by cases hn)
    · refine ⟨.writing h hreads, .inl ?_⟩
      simp only [View.read, hsame]
    · refine ⟨.writing h hreads, .inr ?_⟩
      simp only [View.measure, View.read]
      omega
  | @closed client toClient answer reads =>
    obtain ⟨hreads, hsame | hlower⟩ := received_reads reads List.prefix_rfl count none (fun _ => rfl)
    · refine ⟨.closed hreads, .inl ?_⟩
      simp only [View.read, hsame]
    · refine ⟨.closed hreads, .inr ?_⟩
      simp only [View.measure, View.read]
      exact hlower

theorem poll_reading {client : Client} {input toServer : List UInt8} (sends : client.Sends)
    (h : input ++ (toServer ++ client.unsent) = encodeRequest x.name x.request)
    (chunks : List (ℕ × ℕ)) :
    let pumped := Link.pump chunks client toServer
    Connection.poll ⟨input, .reading⟩ x.limit.bytes ⟨pumped.1, .wouldBlock⟩ =
      if pumped.2.2 ++ pumped.2.1.unsent = [] then (.ok (some (x.name, x.request)), ⟨[], .dispatched⟩)
      else (.ok none, ⟨input ++ readBytes pumped.1, .reading⟩) := by
  intro pumped
  obtain ⟨harrives, -, hpipe, -⟩ := pump_spec sends chunks toServer
  have hall : input ++ readBytes pumped.1 ++ (pumped.2.2 ++ pumped.2.1.unsent) = encodeRequest x.name x.request := by
    rw [List.append_assoc, ← List.append_assoc (readBytes _), hpipe, h]
  have hroom : (input ++ readBytes pumped.1).length ≤ requestHeaderBytes + maxInstanceBytes + x.limit.bytes := by
    have hlength := congrArg List.length hall
    have hshort := x.legal.short
    have hfits := x.legal.fits
    rw [List.length_append, encodeRequest_length] at hlength
    omega
  change Connection.readRequest ⟨input, .reading⟩ x.limit.bytes pumped.1 = _
  rw [Connection.readRequest, maximum_checked]
  dsimp only
  rw [readLoop_ok harrives hroom]
  by_cases hdone : pumped.2.2 ++ pumped.2.1.unsent = []
  · rw [if_pos hdone]
    rw [hdone, List.append_nil] at hall
    dsimp only
    rw [hall, parseRequest_encode x.legal]
  · rw [if_neg hdone]
    dsimp only
    rw [parseRequest_part x.legal hall hdone]

theorem kept_writing {frame : List UInt8} {offset : ℕ} (h : offset < frame.length) :
    UnixControlServer.kept ((.ok none, ⟨[], .writing frame offset⟩) : Connection.Polled) =
      some ⟨[], .writing frame offset⟩ := by
  have hmore : Connection.finished ⟨[], .writing frame offset⟩ = false := by
    simp only [Connection.finished, beq_eq_false_iff_ne]
    omega
  rw [UnixControlServer.kept, hmore]
  rfl

theorem kept_written (frame : List UInt8) :
    UnixControlServer.kept ((.ok none, ⟨[], .writing frame frame.length⟩) : Connection.Polled) = none := by
  simp [UnixControlServer.kept, Connection.finished]

theorem take_ne {frame : List UInt8} {offset : ℕ} (h : offset < frame.length) : frame.take offset ≠ frame := by
  intro heq
  have hlength := congrArg List.length heq
  rw [List.length_take] at hlength
  omega

theorem poll_writing {client : Client} {toClient : List UInt8} {answer : Answer} {offset written : ℕ}
    {chunks : List (ℕ × ℕ)} (hopen : client.isReturned = false) :
    View.poll id x.limit.bytes ⟨client, [], toClient, some ⟨[], .writing (x.frame answer) offset⟩, [x.request? id],
      some answer⟩ chunks written =
      ⟨client, [], toClient ++ ((x.frame answer).drop offset).take written, UnixControlServer.kept (.ok none,
        ⟨[], .writing (x.frame answer) (offset + (((x.frame answer).drop offset).take written).length)⟩),
        [x.request? id], some answer⟩ := by
  simp only [View.poll, Link.streamIo, hopen, Option.bind_some]
  cases ((x.frame answer).drop offset).take written with
  | nil => rfl
  | cons byte bytes => rfl

theorem poll {v : View} (h : Phase x id v) (chunks : List (ℕ × ℕ)) (written : ℕ) :
    Goes x id v (v.poll id x.limit.bytes chunks written) := by
  cases h with
  | @reading client input toServer sends h more =>
    obtain ⟨-, hsends, hpipe, hshort⟩ := pump_spec sends chunks toServer
    have hpolled := poll_reading sends h chunks
    have hlength := congrArg List.length hpipe
    simp only [List.length_append] at hlength
    simp only [View.poll, Link.streamIo, Option.bind_some]
    dsimp only at hpolled
    rw [hpolled]
    split
    · -- the request is complete
      rename_i hdone
      obtain ⟨hempty, hsent⟩ := List.append_eq_nil_iff.mp hdone
      rw [hsends.header hsent, hempty]
      change Goes x id _ ⟨.header [], [], [], some ⟨[], .dispatched⟩, [x.request? id], none⟩
      refine ⟨.dispatched, .inr ?_⟩
      simp only [View.measure]
      omega
    · rename_i hmore
      change Goes x id _ ⟨(Link.pump chunks client toServer).2.1, (Link.pump chunks client toServer).2.2, [],
        some ⟨input ++ readBytes (Link.pump chunks client toServer).1, .reading⟩, [], none⟩
      refine ⟨.reading hsends ?_ hmore, ?_⟩
      · rw [List.append_assoc, ← List.append_assoc (readBytes _), hpipe, h]
      · by_cases hstill : (readBytes (Link.pump chunks client toServer).1).length = 0 ∧
            (Link.pump chunks client toServer).2.1.unsent.length = client.unsent.length
        · have hread := List.eq_nil_of_length_eq_zero hstill.1
          rw [hread, List.nil_append] at hpipe
          obtain ⟨hsame, hunsent⟩ := List.append_inj' hpipe hstill.2
          rw [hread, hsame, hsends.ext sends hunsent, List.append_nil]
          exact .inl rfl
        · refine .inr ?_
          simp only [View.measure]
          omega
  | dispatched => exact ⟨.dispatched, .inl rfl⟩
  | waiting received =>
    cases received with
    | none => exact ⟨.waiting none, .inl rfl⟩
    | some answer =>
      have hlong : 0 < (x.frame answer).length := by
        rw [x.frame_length, responseHeaderBytes]
        omega
      have hle := x.payload_le answer
      have hlength := x.frame_length answer
      have hkept : UnixControlServer.kept ((.ok none, ⟨[], .writing (x.frame answer) 0⟩) : Connection.Polled) =
          some ⟨[], .writing (x.frame answer) 0⟩ := kept_writing hlong
      have hnext : View.poll id x.limit.bytes ⟨.header [], [], [], some ⟨[], .waiting (some answer)⟩,
          [x.request? id], some answer⟩ chunks written =
          ⟨.header [], [], [], some ⟨[], .writing (x.frame answer) 0⟩, [x.request? id], some answer⟩ :=
        congrArg (fun c => View.mk (.header []) [] [] c [x.request? id] (some answer)) hkept
      rw [hnext]
      refine ⟨.writing hlong (.header (by decide) rfl), .inr ?_⟩
      unfold responseHeaderBytes at hlength
      simp only [View.measure, List.length_nil]
      omega
  | @writing client toClient answer offset h reads =>
    have hopen := reads.not_returned (take_ne h)
    rw [poll_writing hopen]
    generalize hbytes : ((x.frame answer).drop offset).take written = bytes
    have hsize : bytes.length ≤ (x.frame answer).length - offset := by
      rw [← hbytes, List.length_take, List.length_drop]
      omega
    have hpart : (x.frame answer).take offset ++ bytes = (x.frame answer).take (offset + bytes.length) := by
      rw [List.take_add, ← hbytes, List.length_take, ← List.take_eq_take_min]
    have hreads := reads.extend hopen bytes
    rw [hpart] at hreads
    by_cases hmore : offset + bytes.length < (x.frame answer).length
    · rw [kept_writing hmore]
      refine ⟨.writing hmore hreads, ?_⟩
      cases bytes with
      | nil => exact .inl (by rw [List.append_nil]; rfl)
      | cons byte bytes =>
        refine .inr ?_
        simp only [View.measure, List.length_append, List.length_cons] at hmore ⊢
        omega
    · have hend : offset + bytes.length = (x.frame answer).length := by omega
      rw [hend, kept_written]
      rw [hend, List.take_length] at hreads
      refine ⟨.closed hreads, .inr ?_⟩
      simp only [View.measure, List.length_append]
      omega
  | @closed client toClient answer reads =>
    refine .same (.closed reads) ?_
    simp [View.poll, Link.streamIo]

theorem begin {v : View} (h : Phase x id v) (refusal : Option String) :
    Goes x id v (v.begin x.limit.bytes refusal) := by
  cases h with
  | reading sends h more => exact ⟨.reading sends h more, .inl rfl⟩
  | dispatched =>
    cases refusal with
    | none =>
      refine ⟨.waiting none, .inr ?_⟩
      simp only [View.measure, View.begin]
      omega
    | some error =>
      have hle := x.payload_le (.failed error)
      have hlength := x.frame_length (.failed error)
      unfold responseHeaderBytes at hlength
      have hlong : 0 < (x.frame (.failed error)).length := by omega
      refine ⟨.writing hlong (.header (by decide) rfl), .inr ?_⟩
      change 2 * ((x.frame (.failed error)).length - 0) + 0 + 1 < _
      simp only [View.measure]
      omega
  | waiting received => exact ⟨.waiting received, .inl rfl⟩
  | writing h reads => exact ⟨.writing h reads, .inl rfl⟩
  | closed reads => exact ⟨.closed reads, .inl rfl⟩

theorem answer {v : View} (h : Phase x id v) (answer : Answer) : Goes x id v (v.answer answer) := by
  cases h with
  | reading sends h more => exact ⟨.reading sends h more, .inl rfl⟩
  | dispatched => exact ⟨.dispatched, .inl rfl⟩
  | waiting received =>
    cases received with
    | none =>
      refine ⟨.waiting (some answer), .inr ?_⟩
      simp only [View.measure, View.answer]
      omega
    | some earlier => exact ⟨.waiting (some earlier), .inl rfl⟩
  | writing h reads => exact ⟨.writing h reads, .inl rfl⟩
  | closed reads => exact ⟨.closed reads, .inl rfl⟩

theorem step {v : View} (h : Phase x id v) (label : LinkStep) :
    Goes x id v (v.step id x.limit.bytes x.maxResponse label) := by
  cases label with
  | write count => exact h.write count
  | read count => exact h.read count
  | poll incoming chunks written others => exact h.poll chunks written
  | begin k refusal =>
    by_cases hk : k = id
    · simpa only [View.step, if_pos hk] using h.begin refusal
    · simpa only [View.step, if_neg hk] using Goes.same h rfl
  | answer k answer =>
    by_cases hk : k = id
    · simpa only [View.step, if_pos hk] using h.answer answer
    · simpa only [View.step, if_neg hk] using Goes.same h rfl

theorem emitted {v : View} (h : Phase x id v) : v.emitted = [] ∨ v.emitted = [x.request? id] := by
  cases h with
  | reading sends h more => exact .inl rfl
  | dispatched => exact .inr rfl
  | waiting received => exact .inr rfl
  | writing h reads => exact .inr rfl
  | closed reads => exact .inr rfl

theorem yields {v : View} (h : Phase x id v) {result : Except ControlError (List UInt8)}
    (hresult : v.client = .returned result) :
    v.emitted = [x.request? id] ∧ ∃ answer, v.given = some answer ∧ answer.Yields x.limit.bytes result := by
  cases h with
  | reading sends h more =>
    dsimp only at hresult
    subst hresult
    rcases sends with ⟨rest, -, heq⟩ | heq <;> cases heq
  | dispatched => cases hresult
  | waiting received => cases hresult
  | writing h reads =>
    dsimp only at hresult
    subst hresult
    cases reads.not_returned (take_ne h)
  | closed reads =>
    dsimp only at hresult
    subst hresult
    cases reads with
    | returned h => exact ⟨rfl, _, rfl, decode_yields x.limit.bytes _⟩

theorem returned_of_still {v : View} (h : Phase x id v)
    (hstill : ∀ label, v.step id x.limit.bytes x.maxResponse label = v) : ∃ result, v.client = .returned result := by
  cases h with
  | @reading client input toServer sends h more =>
    rcases sends with ⟨rest, hrest, rfl⟩ | rfl
    · have hwritten := congrArg View.client (hstill (.write rest.length))
      simp only [View.step, View.write, Link.written, Client.write, if_pos (Nat.le_refl _)] at hwritten
      cases hwritten
    · have hfull : toServer ≠ [] := by simpa [Client.unsent] using more
      have hread := congrArg View.toServer (hstill (.poll [] [(0, 1)] 0 fun _ => ⟨[], .wouldBlock⟩))
      simp only [View.step, View.poll, Link.streamIo, Link.pump, Client.write, List.append_nil, if_neg hfull] at hread
      have hlength := congrArg List.length hread
      have hpos := List.length_pos_iff.mpr hfull
      rw [List.length_drop] at hlength
      omega
  | dispatched =>
    have hbegun := congrArg View.connection (hstill (.begin id none))
    simp only [View.step, if_pos, View.begin] at hbegun
    cases hbegun
  | waiting received =>
    cases received with
    | none =>
      have hanswered := congrArg View.given (hstill (.answer id .canceled))
      simp only [View.step, if_pos, View.answer] at hanswered
      cases hanswered
    | some answer =>
      have hwrites := congrArg View.connection (hstill (.poll [] [] 0 fun _ => ⟨[], .wouldBlock⟩))
      have hlong : 0 < (x.frame answer).length := by
        rw [x.frame_length, responseHeaderBytes]
        omega
      cases (kept_writing hlong).symm.trans hwrites
  | @writing client toClient answer offset h reads =>
    have hopen := reads.not_returned (take_ne h)
    have hdone := congrArg View.connection (hstill (.poll [] [] (x.frame answer).length fun _ => ⟨[], .wouldBlock⟩))
    simp only [View.step, poll_writing hopen] at hdone
    have hend : offset + (((x.frame answer).drop offset).take (x.frame answer).length).length =
        (x.frame answer).length := by
      rw [List.length_take, List.length_drop]
      omega
    rw [hend, kept_written] at hdone
    cases hdone
  | @closed client toClient answer reads =>
    by_cases hempty : toClient = []
    · subst hempty
      exact ⟨_, reads.returned_of_read⟩
    · cases hopen : client.isReturned with
      | true =>
        cases reads with
        | returned h => exact absurd rfl hempty
        | header short h => cases hopen
        | payload short h => cases hopen
      | false =>
        have hwanted := reads.wanted_ne hopen
        have hone : min 1 client.wanted = 1 := by omega
        have hread := congrArg View.toClient (hstill (.read 1))
        simp only [View.step, View.read, Link.received, if_neg hwanted, if_neg hempty, hone, if_neg Nat.one_ne_zero]
          at hread
        have hlength := congrArg List.length hread
        have hpos := List.length_pos_iff.mpr hempty
        rw [List.length_drop] at hlength
        omega

end Phase

namespace View
variable {id maxResponse : ℕ} {limit : Limit} {v : View}

def Unasked (v : View) : Prop := ∀ input, v.connection = some ⟨input, .reading⟩ → v.emitted = []

theorem kept_reading {c : Connection} {io : StreamIo} {input : List UInt8}
    (h : UnixControlServer.kept (c.poll limit.bytes io) = some ⟨input, .reading⟩) :
    c.state = .reading ∧ ∀ id, UnixControlServer.requestOf id (c.poll limit.bytes io) = none := by
  obtain ⟨before, state⟩ := c
  cases state with
  | reading =>
    refine ⟨rfl, fun id => ?_⟩
    change UnixControlServer.kept (Connection.readRequest _ _ io.reads) = _ at h
    change UnixControlServer.requestOf id (Connection.readRequest _ _ io.reads) = none
    unfold Connection.readRequest at h ⊢
    rw [maximum_checked] at h ⊢
    dsimp only at h ⊢
    split at h
    · rfl
    · split at h
      · rfl
      · rfl
      · cases h
  | dispatched => cases h
  | waiting received =>
    cases received with
    | none => cases h
    | some answer =>
      simp only [Connection.poll, UnixControlServer.kept] at h
      split at h <;> cases h
  | writing frame offset =>
    simp only [Connection.poll] at h
    split at h <;> simp only [UnixControlServer.kept] at h <;> first | (split at h <;> cases h) | cases h

theorem Unasked.step (h : v.Unasked) (label : LinkStep) : (v.step id limit.bytes maxResponse label).Unasked := by
  cases label with
  | write count => exact h
  | read count => exact h
  | poll incoming chunks written others =>
    intro input hreads
    cases hc : v.connection with
    | none =>
      simp only [View.step, View.poll, hc, Option.bind_none] at hreads
      cases hreads
    | some c =>
      simp only [View.step, View.poll, hc, Option.bind_some] at hreads ⊢
      obtain ⟨hstate, hnone⟩ := kept_reading hreads
      obtain ⟨before, state⟩ := c
      obtain rfl : state = .reading := hstate
      rw [hnone, h before hc]
      rfl
  | begin k refusal =>
    simp only [View.step]
    split
    · unfold View.begin
      split
      · split <;> (intro input hreads; cases hreads)
      · exact h
    · exact h
  | answer k answer =>
    simp only [View.step]
    split
    · unfold View.answer
      split
      · intro input hreads
        cases hreads
      · exact h
    · exact h

theorem closed_step (h : v.connection = none) (label : LinkStep) :
    (v.step id limit.bytes maxResponse label).connection = none ∧
      (v.step id limit.bytes maxResponse label).emitted = v.emitted := by
  cases label with
  | write count => exact ⟨h, rfl⟩
  | read count => exact ⟨h, rfl⟩
  | poll incoming chunks written others => simp [View.step, View.poll, h]
  | begin k refusal =>
    simp only [View.step, View.begin, h]
    split <;> exact ⟨h, rfl⟩
  | answer k answer =>
    simp only [View.step, View.answer, h]
    split <;> exact ⟨h, rfl⟩

theorem closed_run (id maxResponse : ℕ) (limit : Limit) (h : v.connection = none) (labels : List LinkStep) :
    (run (View.step id limit.bytes maxResponse) v labels).connection = none ∧
      (run (View.step id limit.bytes maxResponse) v labels).emitted = v.emitted :=
  run_always (fun v' : View => v'.connection = none ∧ v'.emitted = v.emitted)
    (fun _ label h' => ⟨(closed_step h'.1 label).1, (closed_step h'.1 label).2.trans h'.2⟩) ⟨h, rfl⟩ labels

theorem malformed_poll (id : ℕ) {input : List UInt8} (hc : v.connection = some ⟨input, .reading⟩)
    {chunks : List (ℕ × ℕ)}
    (h : Malformed limit.bytes (input ++ readBytes (Link.pump chunks v.client v.toServer).1)) (written : ℕ) :
    (v.poll id limit.bytes chunks written).connection = none ∧
      (v.poll id limit.bytes chunks written).emitted = v.emitted := by
  have herror : ∃ error c, Connection.poll ⟨input, .reading⟩ limit.bytes
      ⟨(Link.pump chunks v.client v.toServer).1, .wouldBlock⟩ = (.error error, c) := by
    change ∃ error c, Connection.readRequest ⟨input, .reading⟩ limit.bytes
      (Link.pump chunks v.client v.toServer).1 = (.error error, c)
    rw [Connection.readRequest, maximum_checked]
    dsimp only
    split
    · exact ⟨_, _, rfl⟩
    · rename_i output hread
      obtain rfl := readLoop_eq_ok hread
      rw [parseRequest_malformed h]
      exact ⟨_, _, rfl⟩
  obtain ⟨error, c, herror⟩ := herror
  simp [View.poll, hc, Link.streamIo, herror, UnixControlServer.kept, UnixControlServer.requestOf]

end View

structure Accepted (limit : Limit) where
  server : UnixControlServer
  id : ℕ
  sound : server.Sound
  known : id < server.nextConnection
  bound : server.limit = limit
  fresh : KeyedList.get server.connections id = some {}

def Accepted.link {limit : Limit} (a : Accepted limit) (peer : Client) : Link := ⟨peer, [], [], a.server, [], none⟩

theorem Accepted.serves {limit : Limit} (a : Accepted limit) (peer : Client) : (a.link peer).Serves a.id limit :=
  ⟨a.sound, a.known, a.bound⟩

theorem Accepted.view {limit : Limit} (a : Accepted limit) (peer : Client) :
    (a.link peer).view a.id = ⟨peer, [], [], some {}, [], none⟩ := by
  have hfresh : (a.link peer).connection a.id = some {} := a.fresh
  unfold Link.view
  rw [hfresh]
  rfl

namespace Exchange
variable (x : Exchange)

theorem request_sends : Client.request x.name x.request = .sending (encodeRequest x.name x.request) := by
  have hnamed := x.legal.named
  have hshort := x.legal.short
  have hfits := x.legal.fits
  have hsmall := x.limit.small
  unfold maxInstanceBytes at hshort
  unfold Client.request maxInstanceBytes
  rw [if_neg (by omega)]

theorem phase_start (a : Accepted x.limit) : Phase x a.id ((a.link (Client.request x.name x.request)).view a.id) := by
  have hlong : encodeRequest x.name x.request ≠ [] := by
    intro hempty
    have hlength := encodeRequest_length x.name x.request
    rw [hempty, List.length_nil, requestHeaderBytes] at hlength
    omega
  rw [a.view, x.request_sends]
  exact .reading (.inl ⟨_, hlong, rfl⟩) rfl hlong

end Exchange

open Classical in
noncomputable def changes (id maxResponse : ℕ) : Link → List LinkStep → ℕ
  | _, [] => 0
  | s, label :: labels =>
    (if (s.step id maxResponse label).view id = s.view id then 0 else 1) +
      changes id maxResponse (s.step id maxResponse label) labels

theorem changes_le {x : Exchange} {id : ℕ} {s : Link} (hs : s.Serves id x.limit) (h : Phase x id (s.view id))
    (labels : List LinkStep) : changes id x.maxResponse s labels ≤ (s.view id).measure x.limit.bytes := by
  induction labels generalizing s with
  | nil => exact Nat.zero_le _
  | cons label labels ih =>
    obtain ⟨hview, hserves⟩ := Link.view_step hs x.maxResponse label
    obtain ⟨hphase, hlower⟩ := h.step label
    rw [← hview] at hphase hlower
    have hrest := ih hserves hphase
    rw [changes]
    split
    · rename_i hsame
      rw [hsame] at hrest
      omega
    · rename_i hchanged
      have hless := hlower.resolve_left hchanged
      omega

/-- Whatever a peer sends, a poll that finds bytes which are no request closes the connection,
    and nothing is ever handed out. -/
theorem malformed_closes {limit : Limit} {id maxResponse : ℕ} {s : Link} (hs : s.Serves id limit)
    (hunasked : (s.view id).Unasked) {input : List UInt8} (hreads : s.connection id = some ⟨input, .reading⟩)
    {chunks : List (ℕ × ℕ)}
    (hbad : Malformed limit.bytes (input ++ readBytes (Link.pump chunks s.client s.toServer).1))
    (incoming : List Bool) (written : ℕ) (others : ℕ → StreamIo) (later : List LinkStep) :
    let s' := run (Link.step id maxResponse) s (.poll incoming chunks written others :: later)
    (s'.view id).connection = none ∧ (s'.view id).emitted = [] := by
  intro s'
  have hempty : (s.view id).emitted = [] := hunasked input hreads
  obtain ⟨hclosed, hnone⟩ := View.malformed_poll (v := s.view id) id hreads hbad written
  have hend := View.closed_run id maxResponse limit hclosed later
  rw [hnone, hempty] at hend
  rw [(Link.view_run hs maxResponse (.poll incoming chunks written others :: later)).1]
  exact hend

/-- For every call that passes the checks of the client, every answer of the engine and every way
    the bytes are cut and the steps follow each other: the server hands out the call's request, once,
    and when the client returns, it returns what the engine answered. The exchange goes on until
    then, and takes a bounded number of steps to it. And whatever a peer sends instead, a poll that
    finds bytes which are no request closes the connection, and nothing was or will be handed out. -/
theorem control_round_trip (x : Exchange) (a : Accepted x.limit) (labels : List LinkStep) :
    let s := run (Link.step a.id x.maxResponse) (a.link (Client.request x.name x.request)) labels
    let mine := s.emitted.filter fun r => decide (r.connection = a.id)
    (mine = [] ∨ mine = [⟨a.id, x.name, x.request⟩]) ∧
    (∀ result, s.client = .returned result →
      mine = [⟨a.id, x.name, x.request⟩] ∧ ∃ answer, s.given = some answer ∧ answer.Yields x.limit.bytes result) ∧
    ((∀ label, (s.step a.id x.maxResponse label).view a.id = s.view a.id) → ∃ result, s.client = .returned result) ∧
    changes a.id x.maxResponse (a.link (Client.request x.name x.request)) labels ≤
      2 * (encodeRequest x.name x.request).length + (2 * x.limit.bytes + 16) ∧
    ∀ bytes input incoming chunks written others later,
      let s := run (Link.step a.id x.maxResponse) (a.link (.sending bytes)) labels
      s.connection a.id = some ⟨input, .reading⟩ →
      Malformed x.limit.bytes (input ++ readBytes (Link.pump chunks s.client s.toServer).1) →
      let s' := run (Link.step a.id x.maxResponse) s (.poll incoming chunks written others :: later)
      s'.connection a.id = none ∧ (s'.emitted.filter fun r => decide (r.connection = a.id)) = [] := by
  intro s mine
  have hserves := a.serves (Client.request x.name x.request)
  have hstart := x.phase_start a
  obtain ⟨hview, hs⟩ := Link.view_run hserves x.maxResponse labels
  have hphase : Phase x a.id (s.view a.id) := by
    rw [hview]
    exact run_always (Phase x a.id) (fun _ label h => (h.step label).phase) hstart labels
  refine ⟨hphase.emitted, fun result hresult => hphase.yields hresult, fun hstill => ?_, ?_, ?_⟩
  · refine hphase.returned_of_still fun label => ?_
    rw [← (Link.view_step hs x.maxResponse label).1]
    exact hstill label
  · refine Nat.le_trans (changes_le hserves hstart labels) ?_
    rw [a.view, x.request_sends]
    exact Nat.le_refl _
  · intro bytes input incoming chunks written others later s hreads hbad
    obtain ⟨hview, hs⟩ := Link.view_run (a.serves (.sending bytes)) x.maxResponse labels
    have hunasked : (s.view a.id).Unasked := by
      rw [hview]
      refine run_always View.Unasked (fun _ label h => h.step label) ?_ labels
      rw [a.view]
      exact fun _ _ => rfl
    exact malformed_closes hs hunasked hreads hbad incoming written others later

def sampleExchange : Exchange where
  limit := ⟨1024, by decide, by decide⟩
  name := "policy"
  request := [115, 116, 97, 116, 117, 115]
  maxResponse := 1024
  legal := ⟨by decide, by decide, by decide⟩
  room := by decide

def sampleAccepted : Accepted sampleExchange.limit where
  server := ⟨⟨1024, by decide, by decide⟩, 1, 2, [(1, {})]⟩
  id := 1
  sound := ⟨by simp [KeyedList.Distinct], by decide⟩
  known := by decide
  bound := rfl
  fresh := rfl

/-- The request in two reads, the response in two writes. -/
def sampleSteps : List LinkStep :=
  [.poll [] [(9, 5)] 0 fun _ => ⟨[], .wouldBlock⟩, .write 100, .poll [] [(0, 4096)] 0 fun _ => ⟨[], .wouldBlock⟩,
    .begin 1 none, .answer 1 (.ok [111, 107]), .poll [] [] 0 fun _ => ⟨[], .wouldBlock⟩,
    .poll [] [] 3 fun _ => ⟨[], .wouldBlock⟩, .read 2, .poll [] [] 9 fun _ => ⟨[], .wouldBlock⟩, .read 9, .read 9]

theorem policy_status_round_trip :
    let s := run (Link.step sampleAccepted.id sampleExchange.maxResponse)
      (sampleAccepted.link (Client.request sampleExchange.name sampleExchange.request)) sampleSteps
    s.client = .returned (.ok [111, 107]) ∧
      (s.emitted.filter fun r => decide (r.connection = 1)) = [⟨1, "policy", [115, 116, 97, 116, 117, 115]⟩] := by
  intro s
  have hclient : s.client = .returned (.ok [111, 107]) := rfl
  exact ⟨hclient, ((control_round_trip sampleExchange sampleAccepted sampleSteps).2.1 _ hclient).1⟩

end Snolc.Control

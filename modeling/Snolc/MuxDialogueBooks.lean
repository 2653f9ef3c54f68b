import Snolc.MuxDialogue
import Snolc.MuxSpeech

set_option autoImplicit false

namespace Snolc.Mux
open PollIo SlotTable MuxFrame AsyncTask WireFormat ByteFeed

def message : Option Word → Except WireError (List UInt8)
  | none => .ok []
  | some word => word.encode

/-- The data of a stream is a front of the word that was begun on it, or goes on behind it. -/
inductive Spoken (said : Option Word) (data : List UInt8) : Prop where
  | nothing (hd : data = [])
  | front (bytes : List UInt8) (h : message said = .ok bytes) (hd : data <+: bytes)
  | past (word : Word) (bytes : List UInt8) (hs : said = some word) (h : word.encode = .ok bytes) (hd : bytes <+: data)

/-- A task that says the rest of the word, or fails because there are no bytes for it. -/
inductive Owes {α : Type} (said : Option Word) (task : Task MuxError α) (data : List UInt8) (owed : ℕ) : Prop where
  | rest (bytes rest : List UInt8) (h : message said = .ok bytes) (hlen : rest.length < 2 ^ 32)
      (ht : Speaks task rest) (hd : data ++ rest.drop owed = bytes)
  | refused (e : MuxError) (ht : task = .done (.error e)) (hd : data = [])

def Speech (said : Option Word) (use : Use) (data : List UInt8) (owed : ℕ) : Prop :=
  match use with
  | .free => Spoken said data
  | .opening _ _ => said = none ∧ data = []
  | .saying task _ => Owes said task data owed
  | .hearing _ task => Owes said task data owed
  | .held => said = none ∧ data = []
  | .handle _ => ∃ word bytes, said = some word ∧ word.encode = .ok bytes ∧ bytes <+: data

def Listens (heard : Option Word) (use : Use) (delivered : List UInt8) : Prop :=
  match use with
  | .opening _ _ => heard = none ∧ delivered = []
  | .saying task (some _) => heard = none ∧ ((∃ e, task = .done (.error e)) ∨
      ∀ tail, consume (listening task) tail = some (.ok (), delivered ++ tail))
  | .hearing ear task => heard = none ∧ ((∃ e, task = .done (.error e)) ∨
      ∀ tail, consume (listening task) tail = consume ear.reader (delivered ++ tail))
  | _ => True

def Mode.peer : Mode → Mode
  | .client => .server
  | .server => .client

def Ear.Hears (role : Mode) (ear : Ear) : Prop := ∀ a, (ear.word a).By role.peer

def Sided (role : Mode) (said : Option Word) (use : Use) : Prop :=
  match use with
  | .opening word reply => role = .client ∧ word.By .client ∧ ∀ ear, reply = some ear → ear.Hears .client
  | .saying _ reply => said ≠ none ∧ ∀ ear, reply = some ear → role = .client ∧ ear.Hears .client
  | .hearing ear _ => ear.Hears role ∧ (said = none ↔ role = .server)
  | .held => role = .server
  | _ => True

def Answers (heard : Option Word) : Word → Prop
  | .policy name => heard = some (.policy name)
  | .request _ => False
  | .response _ => ∃ flow, heard = some (.request flow)

structure Line (role : Mode) (said heard : Option Word) (use : Use) (data delivered : List UInt8) (owed : ℕ) :
    Prop where
  covered : owed ≤ data.length
  speech : Speech said use data owed
  listens : Listens heard use delivered
  sided : Sided role said use
  words : ∀ word, said = some word → word.By role
  reads : ∀ word, heard = some word → word.By role.peer ∧ ∃ frame, word.encode = .ok frame ∧ frame <+: delivered
  answers : ∀ word, role = .server → said = some word → Answers heard word

theorem Owes.spoken {α : Type} {said : Option Word} {task : Task MuxError α} {data : List UInt8} {owed : ℕ}
    (h : Owes said task data owed) : Spoken said data := by
  rcases h with ⟨bytes, rest, hmessage, -, -, hd⟩ | ⟨-, -, hd⟩
  · exact .front bytes hmessage ⟨_, hd⟩
  · exact .nothing hd

theorem Speech.spoken {said : Option Word} {use : Use} {data : List UInt8} {owed : ℕ}
    (h : Speech said use data owed) : Spoken said data := by
  cases use with
  | free => exact h
  | opening word reply => exact .nothing h.2
  | saying task reply => exact Owes.spoken h
  | hearing ear task => exact Owes.spoken h
  | held => exact .nothing h.2
  | handle writeClosed =>
    obtain ⟨word, bytes, hs, hbytes, hd⟩ := h
    exact .past word bytes hs hbytes hd

theorem Spoken.word {said : Option Word} {data frame : List UInt8} (h : Spoken said data) {mode : Mode}
    (hsaid : ∀ word, said = some word → word.By mode) {word : Word} (hw : word.By mode)
    (hframe : word.encode = .ok frame) (hfront : frame <+: data) : said = some word := by
  have hne := (Word.encode_length hframe).1
  rcases h with hnil | ⟨bytes, hmessage, hd⟩ | ⟨other, bytes, hs, hbytes, hd⟩
  · rw [hnil] at hfront
    exact absurd (List.prefix_nil.mp hfront) hne
  · cases said with
    | none =>
      cases hmessage
      exact absurd (List.prefix_nil.mp (hfront.trans hd)) hne
    | some other => rw [hw.unique (hsaid other rfl) hframe hmessage (hfront.trans hd)]
  · rcases List.prefix_or_prefix_of_prefix hfront hd with hle | hle
    · rw [hs, hw.unique (hsaid other hs) hframe hbytes hle]
    · rw [hs, (hsaid other hs).unique hw hbytes hframe hle]

namespace Line
variable {role : Mode} {said heard : Option Word} {use : Use} {data delivered : List UInt8} {owed : ℕ}

theorem free (h : Line role said heard use data delivered owed) : Line role said heard .free data delivered owed :=
  ⟨h.covered, h.speech.spoken, trivial, trivial, h.words, h.reads, h.answers⟩

theorem later (h : Line role said heard use data delivered owed) {use' : Use} {data' more : List UInt8} {owed' : ℕ}
    (hcover : owed' ≤ data'.length) (hspeech : Speech said use' data' owed')
    (hlistens : Listens heard use' (delivered ++ more)) (hsided : Sided role said use') :
    Line role said heard use' data' (delivered ++ more) owed' where
  covered := hcover
  speech := hspeech
  listens := hlistens
  sided := hsided
  words := h.words
  reads word hw := (h.reads word hw).imp_right fun ⟨frame, hframe, hfront⟩ =>
    ⟨frame, hframe, hfront.trans (List.prefix_append _ _)⟩
  answers := h.answers

theorem blank (role : Mode) : Line role none none .free [] [] 0 :=
  ⟨Nat.le_refl _, .nothing rfl, trivial, trivial, by simp, by simp, by simp⟩

theorem unsaid (h : Line role none heard use data delivered owed) : data = [] ∧ owed = 0 := by
  have hnil : data = [] := by
    rcases h.speech.spoken with hd | ⟨bytes, hmessage, hd⟩ | ⟨word, bytes, hs, -, -⟩
    · exact hd
    · cases hmessage
      exact List.prefix_nil.mp hd
    · cases hs
  have hcover := h.covered
  rw [hnil] at hcover
  exact ⟨hnil, Nat.le_zero.mp hcover⟩

theorem openFlowTask_owes (flow : OpenRequest) :
    Owes (some (.request flow)) (openFlowTask flow) [] 0 ∧
      ((∃ e, openFlowTask flow = .done (.error e)) ∨ listening (openFlowTask flow) = readOpenResponse) := by
  unfold openFlowTask writeOpen writeFrame
  cases he : encodeOpen flow with
  | error e => exact ⟨.refused (.wire e) rfl rfl, .inl ⟨.wire e, rfl⟩⟩
  | ok bytes =>
    refine ⟨.rest bytes bytes he (Word.encode_length (w := .request flow) he).2 (.write bytes _ ?_) rfl, .inr rfl⟩
    exact readOpenResponse_readsOnly

theorem requested (flow : OpenRequest) :
    Line .client (some (.request flow)) none (.hearing .response (openFlowTask flow)) [] [] 0 := by
  obtain ⟨howes, hlistens⟩ := openFlowTask_owes flow
  refine ⟨Nat.le_refl _, howes, ⟨rfl, hlistens.imp_right fun heq tail => congrArg (consume · tail) heq⟩,
    ⟨fun _ => trivial, by simp⟩, ?_, by simp, by simp⟩
  rintro _ ⟨⟩
  trivial

theorem writeFrame_owes (word : Word) :
    Owes (some word) (writeFrame word.encode) [] 0 ∧
      ((∃ e, writeFrame word.encode = .done (.error e)) ∨
        ∀ tail, consume (listening (writeFrame word.encode)) tail = some (.ok (), [] ++ tail)) := by
  unfold writeFrame
  cases he : word.encode with
  | error e => exact ⟨.refused (.wire e) rfl rfl, .inl ⟨.wire e, rfl⟩⟩
  | ok bytes =>
    exact ⟨.rest bytes bytes he (Word.encode_length he).2 (.write bytes _ trivial) rfl, .inr fun tail => rfl⟩

end Line

namespace Party
variable {T : Type} [TracedIo T]

structure Books (p : Party T) (sent : List Frame) (delivered : StreamId → List UInt8) : Prop where
  outbox : p.connection.Outbox sent
  ledger : p.connection.Ledger
  uniform : Uniform p.connection.splitSendSize sent
  split : p.connection.splitSendSize < 2 ^ 32
  fed : p.connection.Fed delivered
  nodup : p.connection.inbound.Nodup
  known : ∀ id ∈ p.connection.inbound, (p.connection.stream id).isSome
  unowed : ∀ id, p.connection.stream id = none → p.connection.outstanding id = 0
  fresh : ∀ id, p.connection.stream id = none ∨ id ∈ p.connection.inbound →
    p.use id = .free ∧ p.said id = none ∧ p.heard id = none ∧ delivered id = []
  lines : ∀ id, Line p.role (p.said id) (p.heard id) (p.use id) (dataIn id sent) (delivered id)
    (p.connection.outstanding id)

variable {p p' : Party T} {sent sent' : List Frame} {delivered delivered' : StreamId → List UInt8}

theorem Books.claimed (h : p.Books sent delivered) {id : StreamId} (hu : p.use id ≠ .free) :
    (p.connection.stream id).isSome ∧ id ∉ p.connection.inbound := by
  constructor
  · by_contra hs
    exact hu (h.fresh id (.inl (by simpa using hs))).1
  · exact fun hin => hu (h.fresh id (.inr hin)).1

/-- Calls that touched some streams in use keep the books, as soon as the lines of these streams are right. -/
theorem Books.moved (h : p.Books sent delivered) {touched : StreamId → Prop} (hrole : p'.role = p.role)
    (hcarry : Connection.Carry touched p.connection sent p'.connection sent') (hfed : p'.connection.Fed delivered')
    (hsame : ∀ id, ¬ touched id → p'.use id = p.use id ∧ p'.said id = p.said id ∧ p'.heard id = p.heard id ∧
      delivered' id = delivered id)
    (hused : ∀ id, touched id → p.use id ≠ .free)
    (hline : ∀ id, touched id → Line p.role (p'.said id) (p'.heard id) (p'.use id) (dataIn id sent') (delivered' id)
      (p'.connection.outstanding id)) : p'.Books sent' delivered' := by
  obtain ⟨ids, harr⟩ := hcarry.arrivals
  have hkept {id : StreamId} (hs : p'.connection.stream id = none) : p.connection.stream id = none := by
    by_contra hx
    have := hcarry.arrivals.kept (Option.isSome_iff_ne_none.mpr hx)
    rw [hs] at this
    cases this
  have hunknown {id : StreamId} (hs : p.connection.stream id = none) : ¬ touched id := fun ht => by
    have := (h.claimed (hused id ht)).1
    rw [hs] at this
    cases this
  refine ⟨hcarry.outbox, hcarry.ledger, hcarry.uniform, by rw [hcarry.split]; exact h.split, hfed, ?_, fun id hid => ?_,
    fun id hs => ?_, fun id hid => ?_, fun id => ?_⟩
  · rw [harr.inbound]
    refine List.nodup_append.mpr ⟨h.nodup, harr.nodup, fun id hid new hnew => ?_⟩
    rintro rfl
    have := h.known id hid
    rw [harr.fresh id hnew] at this
    cases this
  · rw [harr.inbound, List.mem_append] at hid
    exact (harr.occupied id).mpr (hid.imp (h.known id) fun hin => hin)
  · have hz := h.unowed id (hkept hs)
    rw [hcarry.owed id (hunknown (hkept hs)) (.inr hz), hz]
  · have hold : p.connection.stream id = none ∨ id ∈ p.connection.inbound := by
      rcases hid with hs | hin
      · exact .inl (hkept hs)
      · rw [harr.inbound, List.mem_append] at hin
        exact hin.symm.imp (harr.fresh id) fun hin => hin
    have huntouched : ¬ touched id := fun ht => hused id ht (h.fresh id hold).1
    obtain ⟨hu, hs, hh, hd⟩ := hsame id huntouched
    rw [hu, hs, hh, hd]
    exact h.fresh id hold
  · by_cases ht : touched id
    · rw [hrole]
      exact hline id ht
    · obtain ⟨hu, hs, hh, hd⟩ := hsame id ht
      have howed : p'.connection.outstanding id = p.connection.outstanding id := by
        refine hcarry.owed id ht ?_
        cases hx : p.connection.stream id with
        | none => exact .inr (h.unowed id hx)
        | some state => exact .inl rfl
      rw [hrole, hu, hs, hh, hd, howed, hcarry.data id ht]
      exact h.lines id

theorem Books.touch (h : p.Books sent delivered) {id : StreamId} (hu : p.use id ≠ .free) {c : Connection T}
    (hcarry : Connection.Carry (· = id) p.connection sent c sent') (hfed : c.Fed delivered')
    (hothers : ∀ other, other ≠ id → delivered' other = delivered other) {use : Use} {said heard : Option Word}
    (hline : Line p.role said heard use (dataIn id sent') (delivered' id) (c.outstanding id)) :
    Books { p with
      connection := c, use := Function.update p.use id use, said := Function.update p.said id said,
      heard := Function.update p.heard id heard } sent' delivered' := by
  refine h.moved rfl hcarry hfed (fun other hne => ?_) (fun other he => ?_) (fun other he => ?_)
  · exact ⟨Function.update_of_ne hne _ _, Function.update_of_ne hne _ _, Function.update_of_ne hne _ _,
      hothers other hne⟩
  · rw [he]
    exact hu
  · subst he
    simpa using hline

theorem Books.touch_use (h : p.Books sent delivered) {id : StreamId} (hu : p.use id ≠ .free) {c : Connection T}
    (hcarry : Connection.Carry (· = id) p.connection sent c sent') (hfed : c.Fed delivered')
    (hothers : ∀ other, other ≠ id → delivered' other = delivered other) {use : Use}
    (hline : Line p.role (p.said id) (p.heard id) use (dataIn id sent') (delivered' id) (c.outstanding id)) :
    ((p.withConnection c).setUse id use).Books sent' delivered' := by
  have htouch := h.touch hu hcarry hfed hothers hline
  rw [Function.update_eq_self, Function.update_eq_self] at htouch
  exact htouch

theorem Books.same (h : p.Books sent delivered) : Connection.Quiet p.connection sent p.connection sent :=
  .refl h.outbox h.ledger h.uniform

theorem Books.quiet (h : p.Books sent delivered) {c : Connection T}
    (hquiet : Connection.Quiet p.connection sent c sent') (hfed : c.Fed delivered) :
    (p.withConnection c).Books sent' delivered :=
  h.moved rfl hquiet hfed (fun _ _ => ⟨rfl, rfl, rfl, rfl⟩) (fun _ hf => hf.elim) fun _ hf => hf.elim

theorem Books.dropped {stream : MuxStream} (h : (p.setUse stream.id .free).Books sent delivered) :
    (p.letGo stream).Books sent delivered := by
  have hsends := Connection.drop_sends h.outbox.sound stream
  have hquiet := Connection.drop_quiet h.outbox h.ledger h.uniform stream
  exact h.quiet hquiet (h.fed.same hsends.inbound hquiet.outbox)

theorem Books.letGo (h : p.Books sent delivered) (stream : MuxStream) (hu : p.use stream.id ≠ .free) :
    (p.letGo stream).Books sent delivered :=
  .dropped (h.touch_use hu (Connection.Quiet.carry h.same) h.fed (fun _ _ => rfl) (h.lines stream.id).free)

end Party
end Snolc.Mux

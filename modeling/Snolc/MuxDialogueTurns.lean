import Snolc.MuxAccepted
import Snolc.MuxDialogueBooks
import Snolc.MuxPolicyAgreement

set_option autoImplicit false

namespace Snolc.Mux
open PollIo SlotTable MuxFrame AsyncTask WireFormat ByteFeed GuardedRuns ScriptedIo

theorem drop_taken {T : Type} [TracedIo T] (stream : MuxStream) (c : Connection T) :
    (stream.drop c).takenBytes = c.takenBytes := by
  unfold MuxStream.drop
  split <;> rfl

namespace Party
variable {T : Type} [TracedIo T] {p : Party T} {sent peer : List Frame} {delivered : StreamId → List UInt8}
  {split : ℕ} {id : StreamId}

theorem Books.polled (h : p.Books sent delivered) (hu : p.use id ≠ .free) {α : Type} {bytes rest more : List UInt8}
    {task : Task MuxError α} {r : Poll (Except MuxError α) × Task MuxError α × StreamEnd T}
    (hp : StreamEnd.Polled p.connection sent id bytes delivered task r rest more) (use : Use)
    (said heard : Option Word)
    (hline : ∀ data owed, owed ≤ data.length → data ++ rest.drop owed = bytes →
      Line p.role said heard use data (delivered id ++ more) owed) :
    ∃ sent' delivered', Books { p with
      connection := r.2.2.connection, use := Function.update p.use id use, said := Function.update p.said id said,
      heard := Function.update p.heard id heard } sent' delivered' := by
  obtain ⟨-, sent', hcarry, hcover, hdata⟩ := hp.told
  refine ⟨sent', _, h.touch hu hcarry hp.fed (fun other hne => Function.update_of_ne hne _ _) ?_⟩
  rw [Function.update_self]
  exact hline _ _ hcover hdata

theorem Books.polled_use (h : p.Books sent delivered) (hu : p.use id ≠ .free) {α : Type} {bytes rest more : List UInt8}
    {task : Task MuxError α} {r : Poll (Except MuxError α) × Task MuxError α × StreamEnd T}
    (hp : StreamEnd.Polled p.connection sent id bytes delivered task r rest more) (use : Use)
    (hline : ∀ data owed, owed ≤ data.length → data ++ rest.drop owed = bytes →
      Line p.role (p.said id) (p.heard id) use data (delivered id ++ more) owed) :
    ∃ sent' delivered', ((p.withConnection r.2.2.connection).setUse id use).Books sent' delivered' := by
  obtain ⟨sent', delivered', hbooks⟩ := h.polled hu hp use _ _ hline
  rw [Function.update_eq_self, Function.update_eq_self] at hbooks
  exact ⟨sent', delivered', hbooks⟩

theorem Books.refused (h : p.Books sent delivered) (hu : p.use id ≠ .free) :
    ((p.withConnection p.connection).letGo { id }).Books sent delivered := h.letGo { id } hu

section Poll
variable (h : p.Books sent delivered) (hu : Uniform split peer)
include h hu

/-- What a poll of a task in use leads to, when the task did not fail before. -/
theorem Books.task {α : Type} (task : Task MuxError α) (huse : p.use id ≠ .free)
    (howes : Owes (p.said id) task (dataIn id sent) (p.connection.outstanding id))
    (hlive : ∀ e, task ≠ .done (.error e))
    (hpipe : (task.poll MuxError.io (StreamEnd.mk id p.connection)).2.2.connection.takenBytes <+: flat peer)
    (hok : ∀ e, (task.poll MuxError.io (StreamEnd.mk id p.connection)).1 ≠ .ready (.error (.io e))) :
    ∃ bytes rest more, message (p.said id) = .ok bytes ∧ StreamEnd.Polled p.connection sent id bytes delivered task
      (task.poll MuxError.io (StreamEnd.mk id p.connection)) rest more := by
  rcases howes with ⟨bytes, rest, hmessage, hlen, ht, hd⟩ | ⟨e, ht, -⟩
  · have htold : StreamEnd.Told p.connection sent id bytes rest ⟨id, p.connection⟩ :=
      ⟨rfl, sent, .refl h.outbox h.ledger h.uniform, (h.lines id).covered, hd⟩
    obtain ⟨rest', more, hp⟩ := StreamEnd.poll_speaks hu ht htold (h.claimed huse).1 hlen h.fed hpipe hok
    exact ⟨bytes, rest', more, hmessage, hp⟩
  · exact absurd ht (hlive e)

theorem Books.poll_saying {task : Task MuxError Unit} {reply : Option Ear} (huse : p.use id = .saying task reply)
    (hpipe : (p.poll id).2.connection.takenBytes <+: flat peer)
    (hok : ∀ e, (p.poll id).1 ≠ .ready (.error (.io e))) :
    ∃ sent' delivered', (p.poll id).2.Books sent' delivered' := by
  have hne : p.use id ≠ .free := by rw [huse]; simp
  have hline := h.lines id
  have hspeech := hline.speech
  have hlistens := hline.listens
  obtain ⟨hsaid, hreply⟩ : p.said id ≠ none ∧ ∀ ear, reply = some ear → p.role = .client ∧ ear.Hears .client := by
    have hsided := hline.sided
    rw [huse] at hsided
    exact hsided
  rw [huse] at hspeech hlistens
  unfold Party.poll at hpipe hok ⊢
  rw [huse] at hpipe hok ⊢
  by_cases hdone : ∃ e, task = .done (.error e)
  · obtain ⟨e, rfl⟩ := hdone
    exact ⟨sent, delivered, h.refused hne⟩
  · have hpoll := h.task hu task hne hspeech (fun e he => hdone ⟨e, he⟩)
    dsimp only at hpipe hok ⊢
    generalize task.poll MuxError.io (StreamEnd.mk id p.connection) = r at hpoll hpipe hok ⊢
    obtain ⟨(e | a) | _, task', s⟩ := r
    · obtain ⟨bytes, rest, more, hmessage, hp⟩ := hpoll (by rw [← drop_taken { id }]; exact hpipe)
        fun e' he => hok e' (by cases he; rfl)
      obtain ⟨sent', delivered', hbooks⟩ := h.polled_use hne hp .free fun data owed hcover hd =>
        hline.later hcover (.front bytes hmessage ⟨_, hd⟩) trivial trivial
      exact ⟨sent', delivered', hbooks.dropped⟩
    · obtain ⟨bytes, rest, more, hmessage, hp⟩ := hpoll hpipe (by simp)
      obtain ⟨rfl, hconsume⟩ := hp.ready () rfl
      refine h.polled_use hne hp _ fun data owed hcover hd => ?_
      rw [List.drop_nil, List.append_nil] at hd
      cases reply with
      | none =>
        obtain ⟨word, hword⟩ := Option.ne_none_iff_exists'.mp hsaid
        refine hline.later hcover ⟨word, bytes, hword, ?_, hd ▸ List.prefix_refl _⟩ trivial trivial
        rw [hword] at hmessage
        exact hmessage
      | some ear =>
        -- the task took nothing, so the reader is handed what follows
        obtain ⟨hnone, hfailed | hspeech⟩ := hlistens
        · exact absurd hfailed hdone
        have hnothing : delivered id ++ more = [] := by
          have hlast := hconsume []
          rw [hspeech, ← List.append_assoc, List.append_nil] at hlast
          exact (Prod.mk.inj (Option.some.inj hlast)).2
        obtain ⟨hrole, hears⟩ := hreply ear rfl
        refine hline.later hcover (.rest bytes [] hmessage (by simp) (.listen _ ear.reader_readsOnly) ?_) ?_ ?_
        · rw [List.drop_nil, List.append_nil, hd]
        · refine ⟨hnone, .inr fun tail => ?_⟩
          rw [hnothing, listening_of_readsOnly ear.reader_readsOnly, List.nil_append]
        · rw [hrole]
          exact ⟨hears, iff_of_false hsaid (by simp)⟩
    · obtain ⟨bytes, rest, more, hmessage, hp⟩ := hpoll hpipe (by simp)
      obtain ⟨hspeaks, hconsume⟩ := hp.pending rfl
      refine h.polled_use hne hp _ fun data owed hcover hd => ?_
      refine hline.later hcover (.rest bytes rest hmessage hp.short hspeaks hd) ?_ ⟨hsaid, hreply⟩
      cases reply with
      | none => trivial
      | some ear =>
        obtain ⟨hnone, hfailed | hspeech⟩ := hlistens
        · exact absurd hfailed hdone
        · refine ⟨hnone, .inr fun tail => ?_⟩
          rw [hconsume, hspeech, List.append_assoc]

theorem Books.poll_hearing {ear : Ear} {task : Task MuxError ear.Result} (huse : p.use id = .hearing ear task)
    (hpipe : (p.poll id).2.connection.takenBytes <+: flat peer)
    (hok : ∀ e, (p.poll id).1 ≠ .ready (.error (.io e))) :
    ∃ sent' delivered', (p.poll id).2.Books sent' delivered' := by
  have hne : p.use id ≠ .free := by rw [huse]; simp
  have hline := h.lines id
  have hspeech := hline.speech
  have hlistens := hline.listens
  have hsided := hline.sided
  rw [huse] at hspeech hlistens hsided
  obtain ⟨hears, hsides⟩ := hsided
  unfold Party.poll at hpipe hok ⊢
  rw [huse] at hpipe hok ⊢
  by_cases hdone : ∃ e, task = .done (.error e)
  · obtain ⟨e, rfl⟩ := hdone
    exact ⟨sent, delivered, h.refused hne⟩
  · obtain ⟨hnone, hfailed | hlistens⟩ := hlistens
    · exact absurd hfailed hdone
    have hpoll := h.task hu task hne hspeech (fun e he => hdone ⟨e, he⟩)
    dsimp only at hpipe hok ⊢
    generalize task.poll MuxError.io (StreamEnd.mk id p.connection) = r at hpoll hpipe hok ⊢
    obtain ⟨(e | a) | _, task', s⟩ := r
    · obtain ⟨bytes, rest, more, hmessage, hp⟩ := hpoll (by rw [← drop_taken { id }]; exact hpipe)
        fun e' he => hok e' (by cases he; rfl)
      obtain ⟨sent', delivered', hbooks⟩ := h.polled_use hne hp .free fun data owed hcover hd =>
        hline.later hcover (.front bytes hmessage ⟨_, hd⟩) trivial trivial
      exact ⟨sent', delivered', hbooks.dropped⟩
    · obtain ⟨bytes, rest, more, hmessage, hp⟩ := hpoll hpipe (by simp)
      obtain ⟨rfl, hconsume⟩ := hp.ready a rfl
      -- the word that was read is at the front of what the stream was handed
      have hword : ∃ frame, (ear.word a).encode = .ok frame ∧ frame <+: delivered id ++ more := by
        have hread := hconsume []
        rw [hlistens, ← List.append_assoc, List.append_nil] at hread
        obtain ⟨frame, hframe, heq⟩ := ear.reader_consume hread
        exact ⟨frame, hframe, [], heq.symm⟩
      have hbooks := h.polled hne hp (answered p.role) (p.said id) (some (ear.word a))
        fun data owed hcover hd => by
          rw [List.drop_nil, List.append_nil] at hd
          refine ⟨hcover, ?_, ?_, ?_, hline.words, fun word hw => ?_, fun word hrole hw => ?_⟩
          · cases hrole : p.role with
            | client =>
              obtain ⟨word, hword⟩ := Option.ne_none_iff_exists'.mp fun hx => by
                have := hsides.mp hx
                rw [hrole] at this
                cases this
              rw [hword] at hmessage
              exact ⟨word, bytes, hword, hmessage, hd ▸ List.prefix_refl _⟩
            | server =>
              have hquiet := hsides.mpr hrole
              rw [hquiet] at hmessage
              cases hmessage
              exact ⟨hquiet, hd⟩
          · cases p.role <;> trivial
          · cases hrole : p.role with
            | client => trivial
            | server => rfl
          · cases hw
            exact ⟨hears a, hword⟩
          · rw [hsides.mpr hrole] at hw
            cases hw
      rw [Function.update_eq_self] at hbooks
      exact hbooks
    · obtain ⟨bytes, rest, more, hmessage, hp⟩ := hpoll hpipe (by simp)
      obtain ⟨hspeaks, hconsume⟩ := hp.pending rfl
      refine h.polled_use hne hp _ fun data owed hcover hd => ?_
      refine hline.later hcover (.rest bytes rest hmessage hp.short hspeaks hd) ⟨hnone, .inr fun tail => ?_⟩
        ⟨hears, hsides⟩
      rw [hconsume, hlistens, List.append_assoc]

theorem Books.poll (id : StreamId) (hpipe : (p.poll id).2.connection.takenBytes <+: flat peer)
    (hok : ∀ e, (p.poll id).1 ≠ .ready (.error (.io e))) :
    ∃ sent' delivered', (p.poll id).2.Books sent' delivered' := by
  cases huse : p.use id with
  | saying task reply => exact h.poll_saying hu huse hpipe hok
  | hearing ear task => exact h.poll_hearing hu huse hpipe hok
  | free | opening | held | handle =>
    unfold Party.poll
    rw [huse]
    exact ⟨sent, delivered, h⟩

theorem Books.read (id : StreamId) (room : ℕ) (hpipe : (p.read id room).2.connection.takenBytes <+: flat peer)
    (hok : ∀ e, (p.read id room).1 ≠ .ready (.error (.io e))) :
    ∃ sent' delivered', (p.read id room).2.Books sent' delivered' := by
  cases huse : p.use id with
  | free | opening | saying | hearing | held =>
    unfold Party.read
    rw [huse]
    exact ⟨sent, delivered, h⟩
  | handle writeClosed =>
    have hne : p.use id ≠ .free := by rw [huse]; simp
    have hread : p.read id room =
        (status (p.connection.pollRead id room).1, p.withConnection (p.connection.pollRead id room).2) := by
      unfold Party.read
      rw [huse]
    rw [hread] at hpipe hok ⊢
    obtain ⟨sent', hquiet⟩ := (Connection.pollRead_step p.connection id room).quiet h.outbox h.ledger h.uniform
      (Connection.pollRead_arrivals _ _ _)
    have hfed := h.fed.read hu ((h.outbox.past.read id room).taken.trans hpipe) id room (status_error hok)
    refine ⟨sent', _, h.moved rfl hquiet.carry hfed
      (fun other hother => ⟨rfl, rfl, rfl, Function.update_of_ne hother _ _⟩) (fun other ho => ho ▸ hne)
      fun other ho => ?_⟩
    subst ho
    have hline := h.lines other
    have howed := hquiet.owed other not_false (.inl (h.claimed hne).1)
    change Line p.role (p.said other) (p.heard other) (p.use other) _ _
      ((p.connection.pollRead other room).2.outstanding other)
    rw [Function.update_self, hquiet.data other not_false, howed]
    rw [huse] at hline ⊢
    exact hline.later hline.covered hline.speech trivial trivial

end Poll

theorem Books.driven (h : p.Books sent delivered) {c : Connection T} (hstep : Connection.DriveStep p.connection c)
    (harr : Connection.Arrivals p.connection c) (hfed : c.Fed delivered) :
    ∃ sent' delivered', (p.withConnection c).Books sent' delivered' := by
  obtain ⟨sent', hquiet⟩ := hstep.quiet h.outbox h.ledger h.uniform harr
  exact ⟨sent', delivered, h.quiet hquiet hfed⟩

theorem Books.drive (h : p.Books sent delivered)
    (hok : ∀ e, status p.connection.pollDrive.1 ≠ .ready (.error (.io e))) :
    ∃ sent' delivered', (p.withConnection p.connection.pollDrive.2).Books sent' delivered' :=
  h.driven (Connection.pollDrive_step _) (Connection.pollDrive_arrivals _) (h.fed.drive (status_error hok))

theorem Books.flush (h : p.Books sent delivered) (id : StreamId) :
    ∃ sent' delivered', (p.flush id).2.Books sent' delivered' := by
  have hsends := Connection.pollFlushWrite_sends h.outbox.sound
  unfold Party.flush
  split
  · exact h.driven (Connection.pollFlushWrite_step _) (Connection.pollFlushWrite_arrivals _)
      (h.fed.same hsends.inbound h.outbox.flush)
  · exact ⟨sent, delivered, h⟩

theorem Books.write (h : p.Books sent delivered) (id : StreamId) (input : List UInt8) :
    ∃ sent' delivered', (p.write id input).2.Books sent' delivered' := by
  cases huse : p.use id with
  | free | opening | saying | hearing | held =>
    unfold Party.write
    rw [huse]
    exact ⟨sent, delivered, h⟩
  | handle writeClosed =>
    have hne : p.use id ≠ .free := by rw [huse]; simp
    have hline := h.lines id
    have hsends := Connection.pollData_sends h.outbox.sound id input
    have hwrite : p.write id input =
        (status (p.connection.pollData id input).1, p.withConnection (p.connection.pollData id input).2) := by
      unfold Party.write
      rw [huse]
    rw [hwrite]
    rw [huse] at hline
    by_cases hnil : input = []
    · have hnone : (p.connection.pollData id input).2 = p.connection := by
        unfold Connection.pollData
        rw [if_pos hnil]
        split <;> rfl
      rw [hnone]
      exact ⟨sent, delivered, h⟩
    · obtain ⟨sent', hcarry, hgrows, hcover, -⟩ := Connection.pollData_carry h.outbox h.ledger h.uniform
        (h.claimed hne).1 hnil (Nat.lt_of_le_of_lt (Nat.min_le_right _ _) h.split) (h.lines id).covered
      refine ⟨sent', delivered, h.moved rfl hcarry (h.fed.same hsends.inbound hcarry.outbox)
        (fun other _ => ⟨rfl, rfl, rfl, rfl⟩) (fun other ho => ho ▸ hne) fun other ho => ?_⟩
      subst ho
      obtain ⟨word, bytes, hword, hbytes, hfront⟩ := hline.speech
      change Line p.role (p.said other) (p.heard other) (p.use other) _ _ _
      rw [huse]
      exact ⟨hcover, ⟨word, bytes, hword, hbytes, hfront.trans hgrows⟩, trivial, trivial, hline.words, hline.reads,
        hline.answers⟩

theorem Books.control (h : p.Books sent delivered) (kind : FrameKind) (hk : kind ≠ .frameData) (id : StreamId) :
    ∃ sent', (p.withConnection (p.connection.pollControl kind id).2).Books sent' delivered := by
  have hsends := Connection.pollControl_sends h.outbox.sound kind id
  obtain ⟨sent', hquiet⟩ := Connection.pollControl_quiet h.outbox h.ledger h.uniform hk id
  exact ⟨sent', h.quiet hquiet (h.fed.same hsends.inbound hquiet.outbox)⟩

theorem Books.reuse (h : p.Books sent delivered) (hu : p.use id ≠ .free) (use : Use) (said : Option Word)
    (hline : Line p.role said (p.heard id) use (dataIn id sent) (delivered id) (p.connection.outstanding id)) :
    Books { p.setUse id use with said := Function.update p.said id said } sent delivered := by
  have htouch := h.touch hu (Connection.Quiet.carry h.same) h.fed (fun _ _ => rfl) hline
  rw [Function.update_eq_self] at htouch
  exact htouch

theorem Books.close (h : p.Books sent delivered) (id : StreamId) :
    ∃ sent' delivered', (p.close id).2.Books sent' delivered' := by
  cases huse : p.use id with
  | free | opening | saying | hearing | held =>
    unfold Party.close
    rw [huse]
    exact ⟨sent, delivered, h⟩
  | handle writeClosed =>
    have hne : p.use id ≠ .free := by rw [huse]; simp
    have hclosed (flag : Bool) {q : Party T} (hq : ∃ sent', q.Books sent' delivered) (hsame : q.use = p.use) :
        ∃ sent' delivered', (q.setUse id (.handle flag)).Books sent' delivered' := by
      obtain ⟨sent', hq⟩ := hq
      have hline := hq.lines id
      rw [hsame, huse] at hline
      have hreuse := hq.reuse (by rw [hsame]; exact hne) (.handle flag) (q.said id)
        ⟨hline.covered, hline.speech, trivial, trivial, hline.words, hline.reads, hline.answers⟩
      rw [Function.update_eq_self] at hreuse
      exact ⟨sent', delivered, hreuse⟩
    unfold Party.close MuxStream.pollClose
    rw [huse]
    dsimp only
    split
    · exact hclosed _ ⟨sent, h⟩ rfl
    · have hcontrol := h.control .frameFin (by decide) id
      split
      · rename_i heq
        rw [heq] at hcontrol
        exact hclosed _ hcontrol rfl
      · rename_i heq
        rw [heq] at hcontrol
        exact hclosed _ hcontrol rfl

theorem Books.drop (h : p.Books sent delivered) (id : StreamId) :
    ∃ sent' delivered', (p.drop id).Books sent' delivered' := by
  have hgone (stream : MuxStream) (hid : stream.id = id) (hu : p.use id ≠ .free) :
      ∃ sent' delivered', (p.letGo stream).Books sent' delivered' :=
    ⟨sent, delivered, h.letGo stream (by rw [hid]; exact hu)⟩
  unfold Party.drop
  split
  · exact ⟨sent, delivered, h⟩
  · rename_i writeClosed huse
    exact hgone { id, writeClosed } rfl (by rw [huse]; simp)
  · rename_i huse _
    exact hgone { id } rfl huse

theorem Books.say (h : p.Books sent delivered) (hu : p.use id ≠ .free) (hdata : dataIn id sent = [])
    {word : Word} (hword : word.By p.role) {reply : Option Ear}
    (hreply : ∀ ear, reply = some ear → p.role = .client ∧ ear.Hears .client ∧ p.heard id = none ∧ delivered id = [])
    (hanswers : p.role = .server → Answers (p.heard id) word) :
    (p.say id word (.saying (writeFrame word.encode) reply)).Books sent delivered := by
  have hline := h.lines id
  have howed : p.connection.outstanding id = 0 := by
    have hcover := hline.covered
    rw [hdata] at hcover
    exact Nat.le_zero.mp hcover
  obtain ⟨howes, hspeech⟩ := Line.writeFrame_owes word
  refine h.reuse hu _ _ ⟨hline.covered, ?_, ?_, ⟨by simp, fun ear he => ?_⟩, ?_, hline.reads, ?_⟩
  · rw [hdata, howed]
    exact howes
  · cases reply with
    | none => trivial
    | some ear =>
      obtain ⟨-, -, hheard, hdelivered⟩ := hreply ear rfl
      rw [hdelivered]
      exact ⟨hheard, hspeech⟩
  · exact ⟨(hreply ear he).1, (hreply ear he).2.1⟩
  · rintro _ ⟨⟩
    exact hword
  · rintro _ hrole ⟨⟩
    exact hanswers hrole

theorem Books.answer (h : p.Books sent delivered) (huse : p.use id = .held) {word : Word} (hword : word.By .server)
    (hanswers : Answers (p.heard id) word) : (p.answer id word).Books sent delivered := by
  have hline := h.lines id
  rw [huse] at hline
  obtain ⟨-, hdata⟩ := hline.speech
  have hrole : p.role = .server := hline.sided
  exact h.say (by rw [huse]; simp) hdata (hrole ▸ hword) (by simp) fun _ => hanswers

theorem Books.answerPolicy (h : p.Books sent delivered) (id : StreamId) (family : String) :
    ∃ sent' delivered', (p.answerPolicy id family).2.Books sent' delivered' := by
  unfold Party.answerPolicy
  split
  · rename_i request huse hheard
    split
    · exact ⟨sent, delivered, h.letGo { id } (by rw [huse]; simp)⟩
    · rename_i hsame
      refine ⟨sent, delivered, h.answer huse trivial ?_⟩
      rw [hheard, not_not.mp hsame]
      rfl
  · exact ⟨sent, delivered, h⟩

theorem Books.respondFlow (h : p.Books sent delivered) (id : StreamId) (response : OpenResponse) :
    ∃ sent' delivered', (p.respondFlow id response).2.Books sent' delivered' := by
  unfold Party.respondFlow
  split
  · rename_i flow huse hheard
    exact ⟨sent, delivered, h.answer huse trivial ⟨flow, hheard⟩⟩
  · exact ⟨sent, delivered, h⟩

theorem Books.pollOpen (h : p.Books sent delivered) (id : StreamId) :
    ∃ sent' delivered', (p.pollOpen id).2.Books sent' delivered' := by
  cases huse : p.use id with
  | free | saying | hearing | held | handle =>
    unfold Party.pollOpen
    rw [huse]
    exact ⟨sent, delivered, h⟩
  | opening word reply =>
    obtain ⟨sent', hcontrol⟩ := h.control .frameOpen (by decide) id
    have hline := hcontrol.lines id
    unfold Party.pollOpen
    rw [huse]
    dsimp only
    generalize p.connection.pollControl .frameOpen id = r at hcontrol hline ⊢
    have hne : (p.withConnection r.2).use id ≠ .free := by
      change p.use id ≠ .free
      rw [huse]
      simp
    obtain ⟨(e | _) | _, c⟩ := r
    · exact ⟨sent', delivered, hcontrol.letGo { id } hne⟩
    · change Line p.role (p.said id) (p.heard id) (p.use id) _ _ _ at hline
      rw [huse] at hline
      obtain ⟨hrole, hword, hreply⟩ := hline.sided
      obtain ⟨-, hdata⟩ := hline.speech
      obtain ⟨hheard, hdelivered⟩ := hline.listens
      refine ⟨sent', delivered, hcontrol.say hne hdata (show word.By p.role from hrole ▸ hword)
        (fun ear he => ⟨hrole, hreply ear he, hheard, hdelivered⟩) fun hserver => ?_⟩
      have hclient : p.role = .server := hserver
      rw [hrole] at hclient
      cases hclient
    · exact ⟨sent', delivered, hcontrol⟩

/-- What a new stream leaves of the connection. -/
structure Opened (c : Connection T) (sent : List Frame) (delivered : StreamId → List UInt8) (id : StreamId)
    (d : Connection T) : Prop where
  outbox : d.Outbox sent
  balanced : Connection.Balanced c d
  fed : d.Fed delivered
  inbound : d.inbound = c.inbound
  fresh : c.stream id = none
  streams : ∀ other, d.stream other = if id = other then some {} else c.stream other

theorem Books.opened (h : p.Books sent delivered) {m : Connection T}
    (hm : p.connection.insertStream p.connection.nextStream = .ok m)
    (hq : p.connection.queueStream =
      (.ok { id := p.connection.nextStream }, { m with nextStream := p.connection.nextStream + 2 }))
    (controls : List (FrameKind × StreamId)) (hk : ∀ q ∈ controls, q.1 ≠ .frameData) :
    Opened p.connection sent delivered p.connection.nextStream
      { m with nextStream := p.connection.nextStream + 2, controls := m.controls ++ controls } := by
  obtain ⟨got, part, hin, hdel⟩ := h.fed.inbox
  obtain ⟨hout, hbalanced⟩ := Connection.queued_books h.outbox hm (p.connection.nextStream + 2) controls hk
  obtain ⟨hin', hdel', -⟩ := hin.opens hdel h.outbox.sound hq (m.controls ++ controls)
  have hstreams := Connection.stream_insert hm
  refine ⟨hout, hbalanced, ⟨⟨sent, hout⟩, got, part, hin', hdel'⟩, ?_, Connection.insert_fresh hm, hstreams⟩
  rw [Connection.insertStream_fields hm]

theorem Books.adopt (h : p.Books sent delivered) {d : Connection T} (ho : Opened p.connection sent delivered id d)
    {use : Use} {said : Option Word} (hline : Line p.role said none use [] [] 0) :
    Books { (p.withConnection d).setUse id use with said := Function.update p.said id said } sent delivered := by
  obtain ⟨hout, hbalanced, hfed, hinbound, hnew, hstream⟩ := ho
  obtain ⟨huse, hsaid, hheard, hdelivered⟩ := h.fresh _ (.inl hnew)
  have hunclaimed : id ∉ p.connection.inbound := fun hin => by
    have := h.known id hin
    rw [hnew] at this
    cases this
  have howed (other : StreamId) : d.outstanding other = p.connection.outstanding other := by
    refine hbalanced.outstanding h.ledger other ?_
    cases hx : p.connection.stream other with
    | none => exact .inr (h.unowed other hx)
    | some state => exact .inl rfl
  have hbefore (other : StreamId) (hs : d.stream other = none) :
      other ≠ id ∧ p.connection.stream other = none := by
    rw [hstream] at hs
    split at hs
    · cases hs
    · rename_i hne
      exact ⟨Ne.symm hne, hs⟩
  refine ⟨hout, hbalanced.ledger h.ledger, ?_, ?_, hfed, ?_, fun other hin => ?_, fun other hs => ?_,
    fun other hfree => ?_, fun other => ?_⟩
  · change Uniform d.splitSendSize sent
    rw [hbalanced.split]
    exact h.uniform
  · change d.splitSendSize < 2 ^ 32
    rw [hbalanced.split]
    exact h.split
  · change d.inbound.Nodup
    rw [hinbound]
    exact h.nodup
  · change other ∈ d.inbound at hin
    rw [hinbound] at hin
    exact hbalanced.kept other (h.known other hin)
  · exact (howed other).trans (h.unowed other (hbefore other hs).2)
  · change d.stream other = none ∨ other ∈ d.inbound at hfree
    rw [hinbound] at hfree
    have hne : other ≠ id := by
      rcases hfree with hs | hin
      · exact (hbefore other hs).1
      · rintro rfl
        exact hunclaimed hin
    have hold := h.fresh other (hfree.imp_left fun hs => (hbefore other hs).2)
    refine ⟨(Function.update_of_ne hne _ _).trans hold.1, (Function.update_of_ne hne _ _).trans hold.2.1, hold.2.2⟩
  · change Line p.role (Function.update p.said id said other) (p.heard other) (Function.update p.use id use other) _ _
      (d.outstanding other)
    rw [howed]
    by_cases hne : other = id
    · have hdata := h.lines id
      rw [hsaid, huse] at hdata
      rw [hne, Function.update_self, Function.update_self, h.unowed _ hnew, hdata.unsaid.1, hheard, hdelivered]
      exact hline
    · rw [Function.update_of_ne hne, Function.update_of_ne hne]
      exact h.lines other

theorem Books.skip (h : p.Books sent delivered) {e : MuxError} {next : StreamId}
    (hq : p.connection.queueStream = (.error e, { p.connection with nextStream := next })) :
    (p.withConnection { p.connection with nextStream := next }).Books sent delivered := by
  obtain ⟨got, part, hin, hdel⟩ := h.fed.inbox
  obtain ⟨hin', hdel', -⟩ := hin.opens hdel h.outbox.sound hq p.connection.controls
  have hout : Connection.Outbox { p.connection with nextStream := next } sent :=
    ⟨h.outbox.io, h.outbox.wire, h.outbox.pending⟩
  exact ⟨hout, ⟨h.ledger.kinds, h.ledger.single⟩, h.uniform, h.split, ⟨⟨sent, hout⟩, got, part, hin', hdel'⟩, h.nodup,
    h.known, h.unowed, h.fresh, h.lines⟩

theorem Books.openStream (h : p.Books sent delivered) (word : Word) (hword : word.By .client) {reply : Option Ear}
    (hreply : ∀ ear, reply = some ear → ear.Hears .client) :
    ∃ sent' delivered', (p.openStream word reply).2.Books sent' delivered' := by
  unfold Party.openStream
  by_cases hrole : p.role = .client
  · rw [if_neg (not_not.mpr hrole)]
    rcases p.connection.queueStream_cases with ⟨e, next, hq⟩ | ⟨m, hm, hq⟩
    · rw [hq]
      exact ⟨sent, delivered, h.skip hq⟩
    · have hline : Line p.role none none (.opening word reply) [] [] 0 :=
        ⟨Nat.le_refl _, ⟨rfl, rfl⟩, ⟨rfl, rfl⟩, ⟨hrole, hword, hreply⟩, by simp, by simp, by simp⟩
      have hadopt := h.adopt (h.opened hm hq [] (List.forall_mem_nil _)) hline
      have hsaid : p.said p.connection.nextStream = none := (h.fresh _ (.inl (Connection.insert_fresh hm))).2.1
      rw [← hsaid, Function.update_eq_self, List.append_nil] at hadopt
      rw [hq]
      exact ⟨sent, delivered, hadopt⟩
  · rw [if_pos hrole]
    exact ⟨sent, delivered, h⟩

theorem Books.beginOpen (h : p.Books sent delivered) (request : OpenRequest) :
    ∃ sent' delivered', (p.beginOpen request).2.Books sent' delivered' := by
  unfold Party.beginOpen Connection.queueOpen
  by_cases hrole : p.role = .client
  · rw [if_neg (not_not.mpr hrole)]
    rcases p.connection.queueStream_cases with ⟨e, next, hq⟩ | ⟨m, hm, hq⟩
    · rw [hq]
      exact ⟨sent, delivered, h.skip hq⟩
    · have hopened := h.opened hm hq [(.frameOpen, p.connection.nextStream)] (by simp)
      rw [hq]
      exact ⟨sent, delivered, h.adopt hopened (hrole ▸ Line.requested request)⟩
  · rw [if_pos hrole]
    exact ⟨sent, delivered, h⟩

theorem Books.claim (h : p.Books sent delivered) (hrole : p.role = .server) {ear : Ear} (hear : ear.Hears .server)
    {rest : List StreamId} (hi : p.connection.inbound = id :: rest) :
    ((p.withConnection { p.connection with inbound := rest }).setUse id (.hearing ear ear.reader)).Books sent
      delivered := by
  have hnodup := h.nodup
  rw [hi] at hnodup
  have hout : Connection.Outbox { p.connection with inbound := rest } sent :=
    ⟨h.outbox.io, h.outbox.wire, h.outbox.pending⟩
  obtain ⟨got, part, hin, hdel⟩ := h.fed.inbox
  have hrest {other : StreamId} (ho : other ∈ rest) : other ∈ p.connection.inbound := by
    rw [hi]
    exact List.mem_cons_of_mem _ ho
  have hid : id ∈ p.connection.inbound := by
    rw [hi]
    exact List.mem_cons_self
  have hknown := h.known id hid
  obtain ⟨huse, hsaid, hheard, hdelivered⟩ := h.fresh id (.inr hid)
  have hin' : Connection.Inbox { p.connection with inbound := rest } got part :=
    ⟨hin.regular, hin.taken, hin.header, hin.idle, hin.reading, hin.placed, hin.chunks, hin.budget⟩
  refine ⟨hout, ⟨h.ledger.kinds, h.ledger.single⟩, h.uniform, h.split, ⟨⟨sent, hout⟩, got, part, hin', hdel⟩,
    (List.nodup_cons.mp hnodup).2, fun other ho => h.known other (hrest ho), h.unowed, fun other hfree => ?_,
    fun other => ?_⟩
  · have hne : other ≠ id := by
      rintro rfl
      rcases hfree with hs | ho
      · change p.connection.stream other = none at hs
        rw [hs] at hknown
        cases hknown
      · exact (List.nodup_cons.mp hnodup).1 ho
    have hold := h.fresh other (hfree.imp_right hrest)
    exact ⟨(Function.update_of_ne hne _ _).trans hold.1, hold.2⟩
  · change Line p.role (p.said other) (p.heard other) (Function.update p.use id (.hearing ear ear.reader) other) _ _
      (p.connection.outstanding other)
    by_cases hne : other = id
    · have hold := h.lines id
      rw [hsaid, huse] at hold
      obtain ⟨hdata, howed⟩ := hold.unsaid
      rw [hne, Function.update_self, hsaid, hheard, hdata, howed, hdelivered]
      refine ⟨Nat.le_refl _, .rest [] [] rfl (by simp) (.listen _ ear.reader_readsOnly) rfl, ⟨rfl, .inr fun tail => ?_⟩,
        ⟨by rw [hrole]; exact hear, iff_of_true rfl hrole⟩, by simp, by simp, by simp⟩
      rw [listening_of_readsOnly ear.reader_readsOnly, List.nil_append]
    · rw [Function.update_of_ne hne]
      exact h.lines other

theorem Books.acceptStream (h : p.Books sent delivered) {ear : Ear} (hear : ear.Hears .server)
    (hok : ∀ e, (p.acceptStream ear).1 ≠ .ready (.error (.io e))) :
    ∃ sent' delivered', (p.acceptStream ear).2.Books sent' delivered' := by
  unfold Party.acceptStream Connection.pollAcceptStream at hok ⊢
  by_cases hrole : p.role = .server
  · rw [if_neg (not_not.mpr hrole)] at hok ⊢
    cases hi : p.connection.inbound with
    | nil =>
      rw [hi] at hok
      have hdrive := h.drive
      dsimp only at hok ⊢
      generalize p.connection.pollDrive = r at hdrive hok ⊢
      obtain ⟨(e | _) | _, c⟩ := r
      · exact absurd rfl (hok e)
      all_goals
        obtain ⟨sent', delivered', hbooks⟩ := hdrive (by simp [status])
        dsimp only
        by_cases hclosed : c.closed
        · rw [if_pos hclosed]
          exact ⟨sent', delivered', hbooks⟩
        · rw [if_neg hclosed]
          exact ⟨sent', delivered', hbooks⟩
    | cons id rest => exact ⟨sent, delivered, h.claim hrole hear hi⟩
  · rw [if_pos hrole]
    exact ⟨sent, delivered, h⟩

section Role
omit [TracedIo T]

theorem openStream_role (p : Party T) (word : Word) (reply : Option Ear) :
    (p.openStream word reply).2.role = p.role := by
  unfold Party.openStream
  split
  · rfl
  · split <;> rfl

theorem beginOpen_role (p : Party T) (request : OpenRequest) : (p.beginOpen request).2.role = p.role := by
  unfold Party.beginOpen
  split
  · rfl
  · split <;> rfl

theorem answerPolicy_role (p : Party T) (id : StreamId) (family : String) :
    (p.answerPolicy id family).2.role = p.role := by
  unfold Party.answerPolicy
  split
  · split <;> rfl
  · rfl

theorem respondFlow_role (p : Party T) (id : StreamId) (response : OpenResponse) :
    (p.respondFlow id response).2.role = p.role := by
  unfold Party.respondFlow
  split <;> rfl

theorem drop_role (p : Party T) (id : StreamId) : (p.drop id).role = p.role := by
  unfold Party.drop
  split <;> rfl

variable [AsyncIo T]

theorem pollOpen_role (p : Party T) (id : StreamId) : (p.pollOpen id).2.role = p.role := by
  unfold Party.pollOpen
  split
  · split <;> rfl
  · rfl

theorem acceptStream_role (p : Party T) (ear : Ear) : (p.acceptStream ear).2.role = p.role := by
  unfold Party.acceptStream
  split
  · rfl
  · split <;> rfl

theorem poll_role (p : Party T) (id : StreamId) : (p.poll id).2.role = p.role := by
  unfold Party.poll
  split
  · split <;> rfl
  · split <;> rfl
  · rfl

theorem handle_role (p : Party T) (id : StreamId) :
    (∀ room, (p.read id room).2.role = p.role) ∧ (∀ input, (p.write id input).2.role = p.role) ∧
      (p.flush id).2.role = p.role ∧ (p.close id).2.role = p.role := by
  unfold Party.read Party.write Party.flush Party.close
  cases p.use id <;> exact ⟨fun _ => rfl, fun _ => rfl, rfl, rfl⟩

theorem act_role (p : Party T) (turn : Turn) : (p.act turn).2.role = p.role := by
  cases turn with
  | openPolicy family => exact p.openStream_role _ _
  | openFlow request confirmed => exact p.openStream_role _ _
  | beginOpenFlowConfirmed request => exact p.beginOpen_role request
  | pollOpen id => exact p.pollOpen_role id
  | acceptPolicy => exact p.acceptStream_role _
  | acceptFlow => exact p.acceptStream_role _
  | answerPolicy id family => exact p.answerPolicy_role id family
  | respondFlow id response => exact p.respondFlow_role id response
  | poll id => exact p.poll_role id
  | read id room => exact (p.handle_role id).1 room
  | write id input => exact (p.handle_role id).2.1 input
  | flush id => exact (p.handle_role id).2.2.1
  | close id => exact (p.handle_role id).2.2.2
  | drop id => exact p.drop_role id
  | drive => rfl

end Role

/-- What every turn keeps, as long as the pipe is reliable and nothing fails. -/
theorem Books.act (h : p.Books sent delivered) (hu : Uniform split peer) (turn : Turn)
    (hpipe : (p.act turn).2.connection.takenBytes <+: flat peer)
    (hok : ∀ e, (p.act turn).1 ≠ .ready (.error (.io e))) :
    ∃ sent' delivered', (p.act turn).2.Books sent' delivered' := by
  cases turn with
  | openPolicy family =>
    exact h.openStream (.policy family) trivial fun ear he => by cases he; exact fun _ => trivial
  | openFlow request confirmed =>
    refine h.openStream (.request request) trivial fun ear he => ?_
    cases confirmed with
    | false => cases he
    | true => cases he; exact fun _ => trivial
  | beginOpenFlowConfirmed request => exact h.beginOpen request
  | pollOpen id => exact h.pollOpen id
  | acceptPolicy => exact h.acceptStream (fun _ => trivial) hok
  | acceptFlow => exact h.acceptStream (fun _ => trivial) hok
  | answerPolicy id family => exact h.answerPolicy id family
  | respondFlow id response => exact h.respondFlow id response
  | poll id => exact h.poll hu id hpipe hok
  | read id room => exact h.read hu id room hpipe hok
  | write id input => exact h.write id input
  | flush id => exact h.flush id
  | close id => exact h.close id
  | drop id => exact h.drop id
  | drive => exact h.drive hok

theorem Books.withIo (h : p.Books sent delivered) {io : T} (hio : Dialogue.Continues p io) :
    ∃ sent' delivered', (p.withIo io).Books sent' delivered' := by
  let s : MuxSession T := ⟨p.connection, p.role, false, 0, 0⟩
  have hsends := MuxSession.withIo_inbound (s := s) hio
  have hout := MuxSession.withIo_outbound (s := s) hio
  exact h.driven hout.driveStep (.of_fields rfl rfl rfl) (h.fed.same hsends (h.outbox.same hout))

end Party

end Snolc.Mux

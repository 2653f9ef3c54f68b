import Snolc.MuxDatagrams

set_option autoImplicit false

namespace Snolc.CoreIo
open PollIo ByteOrder WireFormat Mux

def MuxDatagramIo.onto {S S' : Type} (d : MuxDatagramIo S) (stream : S') : MuxDatagramIo S' :=
  ⟨stream, d.readPrefix, d.readPrefixLen, d.readPayload, d.readPayloadLen, d.sendFrame, d.sendOffset, d.closed⟩

theorem records_prefix_cancel {a b : List (List UInt8)} (ha : ∀ datagram ∈ a, datagram.length ≤ maxUdpPayload)
    (hb : ∀ datagram ∈ b, datagram.length ≤ maxUdpPayload) (h : records a <+: records b) : a <+: b := by
  induction a generalizing b with
  | nil => exact List.nil_prefix
  | cons x a ih =>
    obtain ⟨more, hmore⟩ := h
    cases b with
    | nil =>
      have hlength := congrArg List.length hmore
      rw [records_cons, records_nil, List.length_append, List.length_append, record_length, List.length_nil] at hlength
      omega
    | cons y b =>
      rw [records_cons, records_cons, List.append_assoc] at hmore
      obtain ⟨rfl, hrest⟩ := record_append_inj (ha x List.mem_cons_self) (hb y List.mem_cons_self) hmore
      exact List.cons_prefix_cons.mpr ⟨rfl, ih (fun datagram hin => ha datagram (List.mem_cons_of_mem _ hin))
        (fun datagram hin => hb datagram (List.mem_cons_of_mem _ hin)) ⟨more, hrest⟩⟩

section Serves
variable {S : Type} [AsyncIo S]

/-- While `P` holds a read takes its bytes from the stock and keeps `P`, or fails in a way that `bad` names. -/
def Serves (stock : S → List UInt8) (P : S → Prop) (bad : IoError → Prop) : Prop :=
  ∀ io room, P io → (∃ e, bad e ∧ (AsyncIo.pollRead io room).1 = .ready (.error e)) ∨
    P (AsyncIo.pollRead io room).2 ∧ (readBytes (AsyncIo.pollRead io room).1).length ≤ room ∧
      stock io = readBytes (AsyncIo.pollRead io room).1 ++ stock (AsyncIo.pollRead io room).2

variable {stock : S → List UInt8} {P : S → Prop} {bad : IoError → Prop}

theorem Serves.fill (h : Serves stock P bad) (fuel : ℕ) (io : S) (want : ℕ) (hfuel : want < fuel) (hP : P io) :
    (∃ e, bad e ∧ (fill fuel io want).1 = .failed e) ∨
      P (fill fuel io want).2.1 ∧ (fill fuel io want).2.2.length ≤ want ∧
        stock io = (fill fuel io want).2.2 ++ stock (fill fuel io want).2.1 ∧
        ((fill fuel io want).1 = .full → (fill fuel io want).2.2.length = want) := by
  induction fuel generalizing io want with
  | zero => omega
  | succ fuel ih =>
    cases want with
    | zero => exact .inr ⟨hP, Nat.le_refl _, rfl, fun _ => rfl⟩
    | succ want =>
      have hread := h io (want + 1) hP
      rw [PollIo.fill]
      split <;> rename_i heq <;> rw [heq] at hread
      · obtain ⟨e, _, hx⟩ | ⟨hP', hbound, hstock⟩ := hread
        · cases hx
        · exact .inr ⟨hP', Nat.zero_le _, hstock, fun hx => by cases hx⟩
      · rename_i bytes io' hne
        obtain ⟨e, _, hx⟩ | ⟨hP', hbound, hstock⟩ := hread
        · cases hx
        · rw [readBytes_ok] at hbound hstock
          have hpos : 0 < bytes.length := List.length_pos_iff.mpr hne
          dsimp only at hP' hstock ⊢
          refine (ih io' (want + 1 - bytes.length) (by omega) hP').imp_right ?_
          rintro ⟨hP'', hshort, hrest, hfull⟩
          refine ⟨hP'', ?_, ?_, fun hx => ?_⟩
          · rw [List.length_append]
            omega
          · rw [hstock, hrest, List.append_assoc]
          · rw [List.length_append, hfull hx]
            omega
      · rename_i e _
        obtain ⟨e', hbad, hx⟩ | ⟨hP', hbound, hstock⟩ := hread
        · cases hx
          exact .inl ⟨e, hbad, rfl⟩
        · exact .inr ⟨hP', Nat.zero_le _, hstock, fun hx => by cases hx⟩
      · obtain ⟨e, _, hx⟩ | ⟨hP', hbound, hstock⟩ := hread
        · cases hx
        · exact .inr ⟨hP', Nat.zero_le _, hstock, fun hx => by cases hx⟩

/-- The datagram that a receive poll handed out. -/
def handedOut : IoPoll DatagramRecv → List (List UInt8)
  | .ready (.ok (.datagram bytes)) => [bytes]
  | _ => []

namespace MuxDatagramIo

/-- The counters of a reader that never allocates more than a datagram can have. -/
structure Reads (stock : S → List UInt8) (d : MuxDatagramIo S) (left : List UInt8) : Prop extends
    Holds stock d left where
  short : d.readPayload.length ≤ maxUdpPayload

/-- After a receive poll: its datagram stood at the front of `left`. -/
def Returned (stock : S → List UInt8) (P : S → Prop) (bad : IoError → Prop) (left : List UInt8)
    (r : IoPoll DatagramRecv × MuxDatagramIo S) : Prop :=
  (∃ e, bad e ∧ r.1 = .ready (.error e)) ∨
    P r.2.stream ∧ ∃ left', r.2.Reads stock left' ∧ left = records (handedOut r.1) ++ left' ∧
      ∀ bytes ∈ handedOut r.1, bytes.length ≤ maxUdpPayload

variable {d : MuxDatagramIo S} {left : List UInt8}

omit [AsyncIo S] in
theorem Returned.nothing {r : IoPoll DatagramRecv × MuxDatagramIo S} (hP : P r.2.stream) (h : r.2.Reads stock left)
    (hnone : handedOut r.1 = []) : Returned stock P bad left r := by
  refine .inr ⟨hP, left, h, ?_, ?_⟩
  · rw [hnone]
    rfl
  · rw [hnone]
    exact fun _ hin => by cases hin

theorem recvPayload_returned (hs : Serves stock P bad) (hP : P d.stream) (h : d.Reads stock left)
    (hne : d.readPayload ≠ []) (room : ℕ) : Returned stock P bad left (d.recvPayload room) := by
  have hfill := hs.fill (d.readPayload.length - d.readPayloadLen + 1) d.stream
    (d.readPayload.length - d.readPayloadLen) (Nat.lt_succ_self _) hP
  have hpayload := h.payloadLen
  unfold recvPayload
  dsimp only
  rcases hr : fill (d.readPayload.length - d.readPayloadLen + 1) d.stream
    (d.readPayload.length - d.readPayloadLen) with ⟨result, stream, bytes⟩
  rw [hr] at hfill
  dsimp only at hfill ⊢
  obtain ⟨e, hbad, rfl⟩ | ⟨hP', hshort, hsplit, hfull⟩ := hfill
  · exact .inl ⟨e, hbad, rfl⟩
  obtain ⟨hholds, hlength⟩ := h.tookPayload hsplit hshort
  have hreads : (d.tookPayload stream bytes).Reads stock left := ⟨hholds, hlength ▸ h.short⟩
  cases result with
  | full =>
    dsimp only
    have hne' : (d.tookPayload stream bytes).readPayload ≠ [] := by
      rw [← List.length_pos_iff] at hne ⊢
      exact hlength ▸ hne
    have hcount := hfull rfl
    have hleft := hholds.whole hne' (by
      change d.readPayloadLen + bytes.length = _
      omega)
    split
    · exact .nothing hP' hreads rfl
    · refine .inr ⟨hP', _,
        ⟨⟨hholds.size, Nat.zero_le _, Nat.le_refl _, fun hx => absurd rfl hx, rfl⟩, Nat.zero_le _⟩, ?_, ?_⟩
      · rw [handedOut, records_cons, records_nil, List.append_nil]
        exact hleft
      · intro other hin
        obtain rfl := List.mem_singleton.mp hin
        exact hreads.short
  | ended => exact .nothing hP' hreads rfl
  | failed e => exact .nothing hP' hreads rfl
  | pending => exact .nothing hP' hreads rfl

theorem recvRecord_returned (hs : Serves stock P bad) (hP : P d.stream) (h : d.Reads stock left)
    (h2 : d.readPrefixLen = 2) (room : ℕ) :
    Returned stock P bad left (d.recvRecord room) := by
  unfold recvRecord
  split
  · next hempty =>
    obtain ⟨hnil, hzero⟩ := hempty
    have hleft := h.left
    rw [h2, List.take_of_length_le (Nat.le_of_eq h.size), hnil, List.take_nil, List.append_nil] at hleft
    dsimp only
    split
    · exact .nothing hP h rfl
    split
    · next hnone =>
      have hrecord : d.readPrefix = record [] := by
        have hbytes := toBytes_ofBytes d.readPrefix
        rw [h.size, hnone] at hbytes
        rw [record, List.append_nil]
        exact hbytes.symm
      refine .inr ⟨hP, stock d.stream,
        ⟨⟨h.size, Nat.zero_le _, h.payloadLen, fun hx => absurd hnil hx, ?_⟩, h.short⟩, ?_, ?_⟩
      · dsimp only
        rw [hnil, List.take_zero, List.take_nil]
        rfl
      · rw [handedOut, records_cons, records_nil, List.append_nil, ← hrecord]
        exact hleft
      · intro other hin
        obtain rfl := List.mem_singleton.mp hin
        exact Nat.zero_le _
    · next hlimit hnone =>
      have hlength : (resize d.readPayload (ofBytes d.readPrefix)).length = ofBytes d.readPrefix := by
        simp [resize, hnil]
      refine recvPayload_returned (d := { d with readPayload := resize d.readPayload (ofBytes d.readPrefix) })
        hs hP ⟨⟨h.size, h.prefixLen, ?_, fun _ => ⟨h2, hlength⟩, ?_⟩, ?_⟩ ?_ room
      · dsimp only
        rw [hzero]
        exact Nat.zero_le _
      · dsimp only
        rw [h2, List.take_of_length_le (Nat.le_of_eq h.size), hzero, List.take_zero, List.append_nil]
        exact hleft
      · dsimp only
        omega
      · rw [← List.length_pos_iff]
        dsimp only
        omega
  · next hbusy =>
    have hne : d.readPayload ≠ [] := by
      intro hnil
      have hpayload := h.payloadLen
      rw [hnil, List.length_nil] at hpayload
      exact hbusy ⟨hnil, by omega⟩
    exact recvPayload_returned hs hP h hne room

/-- A receive poll hands out the record at the front of what is left, or nothing of it. -/
theorem recv_returned (hs : Serves stock P bad) (hP : P d.stream) (h : d.Reads stock left)
    (room : ℕ) : Returned stock P bad left (d.pollRecvDatagram room) := by
  have hfill := hs.fill (2 - d.readPrefixLen + 1) d.stream (2 - d.readPrefixLen) (Nat.lt_succ_self _) hP
  have hprefix := h.prefixLen
  unfold pollRecvDatagram
  dsimp only
  rcases hr : fill (2 - d.readPrefixLen + 1) d.stream (2 - d.readPrefixLen) with ⟨result, stream, bytes⟩
  rw [hr] at hfill
  dsimp only at hfill ⊢
  obtain ⟨e, hbad, rfl⟩ | ⟨hP', hshort, hsplit, hfull⟩ := hfill
  · exact .inl ⟨e, hbad, rfl⟩
  have hempty : d.readPayload = [] ∨ bytes = [] := by
    by_cases hnil : d.readPayload = []
    · exact .inl hnil
    · have h2 := (h.payload hnil).1
      exact .inr (List.length_eq_zero_iff.mp (by omega))
  have hreads : (d.tookPrefix stream bytes).Reads stock left := ⟨h.tookPrefix hsplit hshort hempty, h.short⟩
  cases result with
  | full =>
    dsimp only
    refine recvRecord_returned hs hP' hreads ?_ room
    have hcount := hfull rfl
    change d.readPrefixLen + bytes.length = 2
    omega
  | ended =>
    dsimp only
    split
    · exact .nothing hP'
        ⟨⟨hreads.size, hreads.prefixLen, hreads.payloadLen, hreads.payload, hreads.left⟩, hreads.short⟩ rfl
    · exact .nothing hP' hreads rfl
  | failed e => exact .nothing hP' hreads rfl
  | pending => exact .nothing hP' hreads rfl

end MuxDatagramIo
end Serves

section Accepts
variable {S : Type} [AsyncIo S]

/-- `P` holds of a stream and of the bytes its writer still has to write, and no write breaks it. -/
def Accepts (P : S → List UInt8 → Prop) : Prop :=
  ∀ io rest, rest ≠ [] → P io rest →
    (∀ n, (AsyncIo.pollWrite io rest).1 = .ready (.ok n) →
      n ≤ rest.length ∧ P (AsyncIo.pollWrite io rest).2 (rest.drop n)) ∧
    ((∀ n, (AsyncIo.pollWrite io rest).1 ≠ .ready (.ok n)) → P (AsyncIo.pollWrite io rest).2 rest)

namespace MuxDatagramIo

/-- The frame in the making is written, or a front of it. -/
def Written (P : S → List UInt8 → Prop) (d : MuxDatagramIo S) (r : IoPoll Unit × MuxDatagramIo S) : Prop :=
  r.1 = .ready (.ok ()) ∧ P r.2.stream [] ∧ r.2 = { d with stream := r.2.stream, sendFrame := [], sendOffset := 0 } ∨
    r.1 ≠ .ready (.ok ()) ∧ ∃ k ≤ d.sendFrame.length, P r.2.stream (d.sendFrame.drop k) ∧
      r.2 = { d with stream := r.2.stream, sendOffset := k }

omit [AsyncIo S] in
theorem written_done {P : S → List UInt8 → Prop} {d : MuxDatagramIo S} (hle : d.sendFrame.length ≤ d.sendOffset)
    (h : P d.stream (d.sendFrame.drop d.sendOffset)) :
    Written P d (.ready (.ok ()), { d with sendFrame := [], sendOffset := 0 }) := by
  rw [List.drop_of_length_le hle] at h
  exact .inl ⟨rfl, h, rfl⟩

theorem sendLoop_written {P : S → List UInt8 → Prop} (hP : Accepts P) (fuel : ℕ) (d : MuxDatagramIo S)
    (hoffset : d.sendOffset ≤ d.sendFrame.length) (hfuel : d.sendFrame.length - d.sendOffset ≤ fuel)
    (h : P d.stream (d.sendFrame.drop d.sendOffset)) : Written P d (d.sendLoop fuel) := by
  induction fuel generalizing d with
  | zero =>
    rw [sendLoop, if_neg (by omega)]
    exact written_done (by omega) h
  | succ fuel ih =>
    rw [sendLoop]
    split
    · next hlt =>
      have hne : d.sendFrame.drop d.sendOffset ≠ [] := by
        rw [Ne, List.drop_eq_nil_iff]
        omega
      obtain ⟨hok, hno⟩ := hP d.stream _ hne h
      rcases hw : AsyncIo.pollWrite d.stream (d.sendFrame.drop d.sendOffset) with ⟨(e | n) | _, stream⟩ <;>
        rw [hw] at hok hno <;> dsimp only at hok hno ⊢
      · exact .inr ⟨by simp, d.sendOffset, hoffset, hno fun n hx => (by cases hx), rfl⟩
      · obtain ⟨hle, hrest⟩ := hok n rfl
        rw [List.length_drop] at hle
        rw [List.drop_drop] at hrest
        cases n with
        | zero => exact .inr ⟨by simp, d.sendOffset, hoffset, hrest, rfl⟩
        | succ n =>
          obtain ⟨h1, h2, h3⟩ | ⟨h1, k, hk, h2, h3⟩ := ih { d with stream, sendOffset := d.sendOffset + (n + 1) }
            (by dsimp only; omega) (by dsimp only; omega) hrest
          · exact .inl ⟨h1, h2, h3⟩
          · exact .inr ⟨h1, k, hk, h2, h3⟩
      · exact .inr ⟨by simp, d.sendOffset, hoffset, hno fun n hx => (by cases hx), rfl⟩
    · exact written_done (by omega) h

end MuxDatagramIo
end Accepts
end Snolc.CoreIo

import Snolc.Configuration
import Snolc.MuxLink

set_option autoImplicit false

namespace Snolc.Mux
open PollIo MuxFrame ScriptedIo CheckedSlice Snolc.Configuration

def YamuxConfig.spareWriteBytes (config : YamuxConfig) : Option ℕ := checkedAdd config.splitSendSize muxHeaderBytes

def YamuxConfig.firstHeader (config : YamuxConfig) (id : StreamId) (input : List UInt8) :
    IoPoll Unit × Connection Script :=
  (((Link.start config [id]).write id input [] []).receiver []).pollPrepareFrame

def YamuxConfig.Delivers (config : YamuxConfig) (id : StreamId) (input : List UInt8) : Prop :=
  (config.firstHeader id input).1 = .ready (.ok ()) ∧
    (config.firstHeader id input).2.readFrame =
      some ⟨.frameData, id, min input.length config.splitSendSize, [], 0, 0⟩

structure YamuxConfig.CarriesFrames (config : YamuxConfig) : Prop where
  capacity : config.spareWriteBytes ≠ none
  delivers : ∀ id input, input ≠ [] → input.length < 2 ^ 63 → config.Delivers id input

theorem Connection.acceptHeader_whole (c : Connection Script) (pipe : Script) (id : StreamId) (payload : List UInt8) :
    ((c.withHeader pipe (Frame.mk .frameData id payload).headerBytes).acceptHeader.1 = .ready (.ok ()) ∧
      (c.withHeader pipe (Frame.mk .frameData id payload).headerBytes).acceptHeader.2.readFrame =
        some ⟨.frameData, id, payload.length, [], 0, 0⟩) ↔
      payload.length < 2 ^ 32 ∧ payload.length ≤ c.splitSendSize ∧
        saturatingAdd c.receivedBytes payload.length ≤ c.receiveLimit := by
  have hcode : FrameKind.ofCode FrameKind.frameData.code = some .frameData := FrameKind.ofCode_code .frameData
  unfold acceptHeader
  simp only [withHeader, Header.parse_headerBytes, Frame.header, hcode]
  have hmod : payload.length % 2 ^ 32 < 2 ^ 32 := Nat.mod_lt _ (by decide)
  split
  · rename_i hover
    constructor
    · rintro ⟨h, -⟩
      cases h
    · rintro ⟨hfits, hsplit, hlimit⟩
      rw [Nat.mod_eq_of_lt hfits] at hover
      omega
  · rename_i hwithin
    rw [if_neg (by simp)]
    constructor
    · rintro ⟨-, h⟩
      have hlength := congrArg PendingRead.length (Option.some.inj h)
      dsimp only at hlength
      rw [hlength] at hwithin hmod
      omega
    · rintro ⟨hfits, -, -⟩
      rw [Nat.mod_eq_of_lt hfits]
      exact ⟨rfl, rfl⟩

namespace YamuxConfig

theorem delivers_iff (config : YamuxConfig) (id : StreamId) {input : List UInt8} (hne : input ≠ []) :
    config.Delivers id input ↔
      min input.length config.splitSendSize < 2 ^ 32 ∧
        saturatingAdd 0 (min input.length config.splitSendSize) ≤ config.receiveWindowBytes := by
  have hopen : ((Link.start config [id]).a.stream id).isSome := by
    rw [Link.start, Connection.stream_withStreams, if_pos (List.mem_singleton_self id)]
    rfl
  obtain ⟨hidle, -⟩ := Link.write_open (Link.start_idle config [id]) hopen rfl hne
  obtain ⟨hb, -⟩ := (Link.start config [id]).write_receiving id input [] []
  have hlimits : (Link.start config [id]).a.splitSendSize = config.splitSendSize ∧
      (Link.start config [id]).b.splitSendSize = config.splitSendSize ∧
      (Link.start config [id]).b.receiveLimit = config.receiveWindowBytes ∧
      (Link.start config [id]).b.receivedBytes = 0 := ⟨rfl, rfl, rfl, rfl⟩
  have hbetween := Link.start_between config [id]
  unfold Delivers firstHeader
  rw [← hb] at hbetween hlimits
  generalize (Link.start config [id]).write id input [] [] = l at hidle hbetween hlimits
  have hsent : l.a.sentBytes =
      [] ++ (Frame.mk .frameData id (input.take config.splitSendSize)).bytes := by
    rw [Connection.sentBytes, hidle.io, ← hlimits.1]
    rfl
  have hprepare := (Link.receiver_open hbetween hsent).prepare (Frame.headerBytes_length _) rfl
  have hlength : min input.length config.splitSendSize = (input.take config.splitSendSize).length := by
    rw [List.length_take, Nat.min_comm]
  rw [hprepare, hlength, Connection.acceptHeader_whole]
  have hsplit : (l.receiver []).splitSendSize = config.splitSendSize := hlimits.2.1
  have hlimit : (l.receiver []).receiveLimit = config.receiveWindowBytes := hlimits.2.2.1
  have hnone : (l.receiver []).receivedBytes = 0 := hlimits.2.2.2
  rw [hsplit, hlimit, hnone]
  have hshort : (input.take config.splitSendSize).length ≤ config.splitSendSize := List.length_take_le _ _
  exact ⟨fun h => ⟨h.1, h.2.2⟩, fun h => ⟨h.1, hshort, h.2⟩⟩

end YamuxConfig

/-- A configuration carries its own frames exactly when its split size fits into the length field
and into the receive window. -/
theorem own_frames_carried_iff (config : Config) :
    config.yamux.CarriesFrames ↔
      config.yamux.splitSendSize < 2 ^ 32 ∧ config.yamux.splitSendSize ≤ config.yamux.receiveWindowBytes := by
  constructor
  · intro h
    -- a write of `n` bytes, for every `n` up to the split size
    have hwrite (n : ℕ) (hpos : 0 < n) (hn : n < 2 ^ 63) (hle : n ≤ config.yamux.splitSendSize) :
        n < 2 ^ 32 ∧ n ≤ config.yamux.receiveWindowBytes := by
      have hne : List.replicate n (0 : UInt8) ≠ [] := by
        rw [ne_eq, List.replicate_eq_nil_iff]
        omega
      have hdelivers := h.delivers 1 (List.replicate n 0) hne (by rwa [List.length_replicate])
      rw [YamuxConfig.delivers_iff config.yamux 1 hne, List.length_replicate, Nat.min_eq_left hle] at hdelivers
      obtain ⟨hfits, hwindow⟩ := hdelivers
      rw [saturatingAdd, usizeMax] at hwindow
      omega
    have hfits : config.yamux.splitSendSize < 2 ^ 32 := by
      by_contra hlong
      have hfull := hwrite (2 ^ 32) (by decide) (by decide) (Nat.le_of_not_lt hlong)
      exact absurd hfull.1 (Nat.lt_irrefl _)
    refine ⟨hfits, ?_⟩
    rcases Nat.eq_zero_or_pos config.yamux.splitSendSize with hzero | hpos
    · rw [hzero]
      exact Nat.zero_le _
    · exact (hwrite config.yamux.splitSendSize hpos (by omega) (Nat.le_refl _)).2
  · rintro ⟨hfits, hwindow⟩
    refine ⟨?_, ?_⟩
    · rw [YamuxConfig.spareWriteBytes, checkedAdd_of_le]
      · exact Option.some_ne_none _
      · unfold muxHeaderBytes wordMax
        omega
    · intro id input hne hlength
      rw [YamuxConfig.delivers_iff config.yamux id hne, saturatingAdd, usizeMax]
      omega

/-- A split size of one byte more than the window is validated, and the receiver refuses the first
full frame. -/
theorem window_refuses_own_frame :
    (smallConfig 1048576 524289 (by decide) (by decide)).validate = .ok () ∧
    ¬ (smallConfig 1048576 524289 (by decide) (by decide)).yamux.CarriesFrames := by
  refine ⟨smallConfig_valid (by decide) (by decide), ?_⟩
  intro h
  have hne : List.replicate 524289 (0 : UInt8) ≠ [] := by
    rw [ne_eq, List.replicate_eq_nil_iff]
    decide
  have hdelivers := h.delivers 1 (List.replicate 524289 0) hne (by rw [List.length_replicate]; decide)
  rw [YamuxConfig.delivers_iff _ 1 hne, List.length_replicate] at hdelivers
  exact absurd hdelivers.2 (by decide)

end Snolc.Mux

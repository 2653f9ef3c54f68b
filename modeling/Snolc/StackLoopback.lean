import Mathlib.Data.List.Flatten
import Snolc.StackTraffic

set_option autoImplicit false

namespace Snolc.Stack
open Handles
open scoped List

/-- The payload of a UDP packet, where it comes from and where it goes. -/
def readDatagram (packet : List UInt8) : Option (List UInt8 × IpEndpoint × IpEndpoint) :=
  match transport 17 true packet with
  | none => none
  | some (source, destination, payload) =>
    if payload.length < 8 ∨ payload.length < field16 payload 4 then none
    else some ((payload.take (field16 payload 4)).drop 8, ⟨source, UInt16.ofNat (field16 payload 0)⟩,
      ⟨destination, UInt16.ofNat (field16 payload 2)⟩)

def datagramPacket (port : UInt16) (payload : List UInt8) (address : Vector UInt8 4) (target : ℕ) : List UInt8 :=
  let length := 8 + payload.length
  [69, 0, UInt8.ofNat ((20 + length) / 256), UInt8.ofNat (20 + length), 0, 0, 0, 0, 64, 17, 0, 0, 127, 0, 0, 1] ++
    address.toList ++ [UInt8.ofNat (port.toNat / 256), UInt8.ofNat port.toNat, UInt8.ofNat (target / 256),
      UInt8.ofNat target, UInt8.ofNat (length / 256), UInt8.ofNat length, 0, 0] ++ payload

/-- The packet of IPv4 for a datagram, if it has one that reads back. -/
def writeDatagram (port : UInt16) (datagram : List UInt8 × IpEndpoint) : Option (List UInt8) :=
  match datagram.2.addr with
  | .v6 _ => none
  | .v4 address =>
    let packet := datagramPacket port datagram.1 address datagram.2.port.toNat
    if readDatagram packet = some (datagram.1, ⟨loopback, port⟩, datagram.2) then some packet else none

abbrev LoopbackUdp := Option ListenEndpoint × List (List UInt8 × IpEndpoint)

def loopbackSmoltcp : Smoltcp Unit (Option ListenEndpoint) LoopbackUdp where
  start _ := some ()
  newTcp _ := none
  newUdp _ := (none, [])
  listen _ endpoint := .ok (some endpoint)
  connect w rest _ _ := (w, .ok rest)
  bind rest endpoint := some (some endpoint, rest.2)
  pollMaintenance w := w
  ingress w set packet := (⟨w, fun _ => sampleTcp packet, fun index socket =>
    match readDatagram packet with
    | none => socket
    | some (payload, source, destination) =>
      if set.findIdx? (boundTo Prod.fst destination) = some index then
        { socket with rx := socket.rx ++ [(payload, source)] }
      else socket⟩, none)
  egress w stopped set :=
    if stopped then (⟨w, fun _ socket => socket, fun _ socket => socket⟩, [])
    else (⟨w, fun _ socket => socket, fun _ socket => { socket with rest := (socket.rest.1, []) }⟩,
      (List.range set.length).flatMap fun index =>
        match set.udpAt index with
        | none => []
        | some socket => socket.rest.2.filterMap (writeDatagram (socket.rest.1.elim 0 ListenEndpoint.port)))
  handleOrder _ handles := handles
  handleOrder_perm _ _ := List.Perm.refl _
  endpointOrder _ endpoints := endpoints
  endpointOrder_perm _ _ := List.Perm.refl _

def arriving (packet : QueuedPacket) : List (List UInt8 × IpEndpoint) :=
  if packet.external then [] else ((readDatagram packet.bytes).map fun d => (d.1, d.2.2)).toList

def loopbackService : UdpService loopbackSmoltcp where
  bound := Prod.fst
  queued := Prod.snd
  sendSlice rest datagram endpoint := rest.1.map fun bound => (some bound, rest.2 ++ [(datagram, endpoint)])
  completes _ packet := (readDatagram packet).map fun d => (d.1, d.2.2)
  mixes _ _ := false
  onWay _ queue := queue.flatMap arriving

section Departures

/-- What comes back in of a packet that was sent. -/
def looping (packet : List UInt8) : List (List UInt8 × IpEndpoint) :=
  if virtualLoopbackDestination packet then ((readDatagram packet).map fun d => (d.1, d.2.2)).toList else []

theorem arriving_consume (d : BoundedDevice) (packet : List UInt8) :
    (d.consume packet).ingress.flatMap arriving <+ d.ingress.flatMap arriving ++ looping packet := by
  unfold BoundedDevice.consume
  split
  · split
    · next hloop => simp [arriving, looping, hloop]
    · exact List.sublist_append_left _ _
  · exact List.sublist_append_left _ _

theorem arriving_consumed (packets : List (List UInt8)) (d : BoundedDevice) :
    (packets.foldl BoundedDevice.consume d).ingress.flatMap arriving <+
      d.ingress.flatMap arriving ++ packets.flatMap looping := by
  induction packets generalizing d with
  | nil => simp
  | cons packet packets ih =>
    refine (ih (d.consume packet)).trans ?_
    rw [List.flatMap_cons, ← List.append_assoc]
    exact (arriving_consume d packet).append_right _

theorem looping_written {port : UInt16} {datagram : List UInt8 × IpEndpoint} {packet : List UInt8}
    (h : writeDatagram port datagram = some packet) :
    looping packet <+ if looped datagram.2.addr then [datagram] else [] := by
  obtain ⟨payload, addr, port'⟩ := datagram
  cases addr with
  | v6 address => cases h
  | v4 address =>
    simp only [writeDatagram, Option.ite_none_right_eq_some] at h
    obtain ⟨hread, hpacket⟩ := h
    cases hpacket
    unfold looping
    split
    · next hloop =>
      have hhost : looped (.v4 address) = true := by
        have hsixteen : (datagramPacket port payload address port'.toNat)[16]? = address.toList.head? := by
          rw [datagramPacket, List.append_assoc, List.append_assoc, List.getElem?_append_right (Nat.le_refl 16),
            List.getElem?_append_left (by simp), List.head?_eq_getElem?]
          rfl
        have hfirst : ((datagramPacket port payload address port'.toNat)[16]? == some 127) = true := hloop
        rw [hsixteen] at hfirst
        exact hfirst
      rw [hread, if_pos hhost]
      exact List.Sublist.refl _
    · exact List.nil_sublist _

theorem looping_queue (port : UInt16) (queue : List (List UInt8 × IpEndpoint)) :
    (queue.filterMap (writeDatagram port)).flatMap looping <+ queue.filter (looped ·.2.addr) := by
  induction queue with
  | nil => exact List.Sublist.refl _
  | cons datagram queue ih =>
    rw [List.filter_cons]
    cases hwritten : writeDatagram port datagram with
    | none =>
      rw [List.filterMap_cons_none hwritten]
      split
      · exact ih.cons _
      · exact ih
    | some packet =>
      rw [List.filterMap_cons_some hwritten, List.flatMap_cons]
      have happend := (looping_written hwritten).append ih
      split at happend <;> simp_all

end Departures

theorem loopback_documented : loopbackService.Documented where
  binds config endpoint u h := by
    cases h
    exact ⟨rfl, rfl⟩
  sends u datagram endpoint u' h := by
    obtain ⟨bound, hbound, rfl⟩ := Option.map_eq_some_iff.mp h
    exact ⟨hbound.symm, rfl⟩
  maintains w queue := List.Subperm.refl _
  connects w rest endpoint port queue := List.Subperm.refl _
  drops w packet queue := (List.sublist_append_right _ _).subperm
  brings w queue bytes := by
    change List.flatMap arriving (queue ++ [⟨bytes, true⟩]) <+~ queue.flatMap arriving
    simp only [List.flatMap_append, List.flatMap_cons, List.flatMap_nil, arriving, if_true, List.append_nil]
    exact List.Subperm.refl _
  keeps w set bytes index socket h := by
    dsimp only [loopbackSmoltcp]
    split
    · exact ⟨rfl, rfl⟩
    · split <;> exact ⟨rfl, rfl⟩
  delivers w set bytes index socket h := by
    dsimp only [loopbackSmoltcp]
    split
    · exact .inl rfl
    next payload source destination hread =>
    split
    · next hreceiver =>
      refine .inr ⟨payload, destination, source, ?_, hreceiver, rfl⟩
      change (readDatagram bytes).map _ = _
      rw [hread]
      rfl
    · exact .inl rfl
  takes w set packet device h := List.Subperm.refl _
  transmits w stopped set index socket h := by
    dsimp only [loopbackSmoltcp]
    split
    · exact ⟨rfl, rfl, List.suffix_refl _⟩
    · exact ⟨rfl, rfl, List.nil_suffix⟩
  departs w set device h := by
    refine ((arriving_consumed _ device).trans ?_).subperm
    refine List.Sublist.append_left ?_ _
    change List.flatMap looping (List.flatMap _ _) <+ _
    rw [List.flatMap_assoc, List.filter_flatMap]
    refine List.Sublist.flatMap_right _ fun index _ => ?_
    unfold UdpService.departed
    cases set.udpAt index with
    | none => exact List.Sublist.refl _
    | some socket =>
      change List.flatMap looping _ <+ ((socket.rest.2.take (socket.rest.2.length - 0)).filter _)
      rw [Nat.sub_zero, List.take_length]
      exact looping_queue _ _
  rests w set queue := List.Subperm.refl _

theorem loopback_starts : ∃ s₀, StackBridge.new loopbackSmoltcp sampleConfig 4 200000 8 = .ok s₀ := by
  have hok : (StackBridge.new loopbackSmoltcp sampleConfig 4 200000 8).toOption.isSome = true := by
    decide +kernel
  cases hnew : StackBridge.new loopbackSmoltcp sampleConfig 4 200000 8 with
  | error error =>
    rw [hnew] at hok
    cases hok
  | ok s₀ => exact ⟨s₀, rfl⟩

end Snolc.Stack

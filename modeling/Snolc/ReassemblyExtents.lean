import Snolc.ReassemblyRoundTrip

set_option autoImplicit false

namespace Snolc.Stack

def Within (total : ℕ) (held : List Event) : Prop :=
  ∀ e ∈ held, ∀ f, fragmentOf e.call.packet = some f → f.offset + f.payload.length ≤ total

def LastReachesFurthest (held : List Event) : Prop :=
  ∀ front last back, held = front ++ last :: back → ∀ total, Ends total last → Within total front

theorem Extents.within_iff {held : List Event} {total : ℕ} (h : Extents (some total) held)
    (hends : ∃ e ∈ held, Ends total e) : Within total held ↔ LastReachesFurthest held := by
  constructor
  · intro hwithin front last back hsplit total' hlast e hm f hf
    cases (h front last back hsplit total' hlast).1
    exact hwithin e (by rw [hsplit]; exact List.mem_append_left _ hm) f hf
  · rintro hreach e hm f hf
    obtain ⟨last, hlast, hend⟩ := hends
    obtain ⟨front, back, hsplit⟩ := List.append_of_mem hlast
    rw [hsplit] at hm
    rcases List.mem_append.mp hm with hfront | hrest
    · exact hreach front last back hsplit total hend e hfront f hf
    · rcases List.mem_cons.mp hrest with rfl | hback
      · obtain ⟨f', hf', -, hstop⟩ := hend
        cases hf.symm.trans hf'
        exact Nat.le_of_eq hstop
      · exact (h front last back hsplit total hend).2 e hback f hf

/-- In every run, every packet given out has a length such that the fragments it is made of all
lie within it exactly when none of those stored before the last fragment ends past it. -/
theorem extents_respected_iff (slots timeoutMs : ℕ) (calls : List Call) :
    ∃ r log, (Ipv6Reassembly.new slots timeoutMs).run calls = some (r, log) ∧ log.map Event.call = calls ∧
      ∀ before e after, log = before ++ e :: after →
        ∀ f, fragmentOf e.call.packet = some f → ∀ p, e.outcome = .packet p →
          ∃ first g total, (contributors timeoutMs f.key before e).head? = some first ∧
            fragmentOf first.call.packet = some g ∧ p.length = g.prefixLen + total ∧
            (Within total (contributors timeoutMs f.key before e) ↔
              LastReachesFurthest (contributors timeoutMs f.key before e)) := by
  obtain ⟨r, log, hrun, hcalls, -, hall⟩ := run_logged slots timeoutMs calls (Ipv6Reassembly.new slots timeoutMs) []
    ⟨rfl, List.length_replicate, tracks_new slots timeoutMs⟩
  refine ⟨r, log, hrun, hcalls, fun before e after h f hf p hp => ?_⟩
  obtain ⟨first, g, total, hmade, hlength, hextents⟩ := hall before e after h f hf p hp
  rw [List.nil_append] at hmade hextents
  refine ⟨first, g, total, hmade.head, hmade.fragment, hlength, hextents.within_iff ?_⟩
  obtain ⟨total', hlength', hends⟩ := hmade.length
  rw [show total = total' by omega]
  exact hends

def overlongCall : Call := ⟨samplePacket.fragment 7 ⟨8, List.replicate 8 1, true⟩, 10, 1000⟩
def shortLastCall : Call := ⟨samplePacket.fragment 7 ⟨0, List.replicate 8 2, false⟩, 11, 1000⟩

def shortPacket : Datagram where
  __ := samplePacket
  body := List.replicate 8 2
  nonempty := by decide
  small := by decide

/-- A packet of eight fragmentable bytes is made of two fragments one of which ends at sixteen. -/
theorem overlong_fragment_accepted :
    ((Ipv6Reassembly.new 1 30000).run [overlongCall, shortLastCall]).map Prod.snd =
      some [⟨overlongCall, .buffered⟩, ⟨shortLastCall, .packet shortPacket.bytes⟩] ∧
    ∃ f, fragmentOf shortLastCall.packet = some f ∧ shortPacket.bytes.length = f.prefixLen + 8 ∧
      contributors 30000 f.key [⟨overlongCall, .buffered⟩] ⟨shortLastCall, .packet shortPacket.bytes⟩ =
        [⟨overlongCall, .buffered⟩, ⟨shortLastCall, .packet shortPacket.bytes⟩] ∧
      ¬ Within 8 (contributors 30000 f.key [⟨overlongCall, .buffered⟩]
        ⟨shortLastCall, .packet shortPacket.bytes⟩) := by
  refine ⟨by decide +kernel, ?_⟩
  have hlast : (fragmentOf shortLastCall.packet).map (fun f => (f.prefixLen, decide (contributors 30000 f.key
      [⟨overlongCall, .buffered⟩] ⟨shortLastCall, .packet shortPacket.bytes⟩ =
        [⟨overlongCall, .buffered⟩, ⟨shortLastCall, .packet shortPacket.bytes⟩]))) = some (60, true) := by
    decide +kernel
  have hfirst : (fragmentOf overlongCall.packet).map (fun f => f.offset + f.payload.length) = some 16 := by
    decide +kernel
  obtain ⟨f, hf, heq⟩ := Option.map_eq_some_iff.mp hlast
  obtain ⟨g, hg, hstop⟩ := Option.map_eq_some_iff.mp hfirst
  obtain ⟨hlength, hheld⟩ := Prod.mk.inj heq
  rw [decide_eq_true_eq] at hheld
  refine ⟨f, hf, by rw [hlength]; decide +kernel, hheld, fun hwithin => ?_⟩
  rw [hheld] at hwithin
  have hle := hwithin ⟨overlongCall, .buffered⟩ List.mem_cons_self g hg
  omega

end Snolc.Stack

import Snolc.Configuration
import Snolc.StackAccounts

set_option autoImplicit false

namespace Snolc.Configuration
open CheckedSlice Stack
open Engine (StackError)

/-- The bytes of four slots: a packet and its block map here, and 65536 bytes in smoltcp. -/
def slotBytes : ℕ := 557212

def Config.startBridge {W T U : Type} (config : Config) (env : Smoltcp W T U) : Except StackError (StackBridge W T U) :=
  StackBridge.new env config.stack.toStackConfig config.engine.maxFlows config.engine.maxManagedBytes
    config.engine.maxIngressPacketsPerTick

theorem reassemblyManagedBytes_eq {stack : StackConfig} (slot slots smoltcp : ℕ) {bytes : ℕ}
    (hslot : checkedAdd maxIpv6PacketBytes reassemblyBlocks = some slot)
    (hslots : checkedMul slot stack.reassemblySlots = some slots)
    (hsmoltcp : checkedMul stack.reassemblySlots 65536 = some smoltcp)
    (hbytes : checkedAdd slots smoltcp = some bytes) :
    reassemblyManagedBytes stack = checkedAdd bytes stack.packetQueueBytes := by
  simp only [reassemblyManagedBytes, hslot, hslots, hsmoltcp, hbytes, Option.bind_eq_bind, Option.bind_some]

theorem reassemblyManagedBytes_four {stack : StackConfig} (hfour : stack.reassemblySlots = 4) :
    reassemblyManagedBytes stack = checkedAdd slotBytes stack.packetQueueBytes := by
  have hpacket : maxIpv6PacketBytes = 65575 := rfl
  have hblocks : reassemblyBlocks = 8192 := rfl
  apply reassemblyManagedBytes_eq 73767 295068 262144
  · rw [hpacket, hblocks]
    exact checkedAdd_of_le (by decide)
  · rw [hfour]
    exact checkedMul_of_le (by decide)
  · rw [hfour]
    exact checkedMul_of_le (by decide)
  · exact checkedAdd_of_le (by decide)

theorem new_resource_iff {W T U : Type} (env : Smoltcp W T U) {stack : StackConfig} {interface : W}
    (hstart : env.start stack = some interface) (maxFlows managed packets : ℕ) :
    StackBridge.new env stack maxFlows managed packets ≠ .error .resource ↔
      ∃ bytes, reassemblyManagedBytes stack = some bytes ∧ bytes ≤ managed := by
  unfold StackBridge.new
  split
  · rename_i hnone
    rw [hnone]
    refine ⟨fun h => absurd rfl h, ?_⟩
    rintro ⟨bytes, hbytes, -⟩
    cases hbytes
  · rename_i bytes hbytes
    split
    · rename_i hover
      refine ⟨fun h => absurd rfl h, ?_⟩
      rintro ⟨bytes', hbytes', hle⟩
      cases hbytes.symm.trans hbytes'
      omega
    · rename_i hfits
      rw [hstart]
      refine ⟨fun _ => ⟨bytes, hbytes, Nat.le_of_not_lt hfits⟩, fun _ h => ?_⟩
      cases h

/-- A validated configuration gets a bridge exactly when the slots and the packet queue fit into
the managed bytes. -/
theorem started_iff_share_fits {W T U : Type} (env : Smoltcp W T U) (config : Config)
    (hvalid : config.validate = .ok ()) (hroutes : env.start config.stack.toStackConfig ≠ none) :
    config.startBridge env ≠ .error .resource ↔
      slotBytes + config.stack.packetQueueBytes ≤ config.engine.maxManagedBytes := by
  have haccepted := Config.validate_ok hvalid
  have hmanaged := config.managed_fits
  obtain ⟨interface, hstart⟩ := Option.ne_none_iff_exists'.mp hroutes
  rw [Config.startBridge, new_resource_iff env hstart, reassemblyManagedBytes_four haccepted.slots]
  constructor
  · rintro ⟨bytes, hbytes, hle⟩
    rw [checkedAdd_eq_some hbytes] at hle
    exact hle
  · intro hle
    exact ⟨_, checkedAdd_of_le (hle.trans hmanaged), hle⟩

theorem small_config_starts :
    (smallConfig 1048576 16384 (by decide) (by decide)).startBridge sampleSmoltcp ≠ .error .resource :=
  (started_iff_share_fits sampleSmoltcp (smallConfig 1048576 16384 (by decide) (by decide))
    (smallConfig_valid (by decide) (by decide)) nofun).mpr (by decide)

/-- Managed bytes for the mux windows alone are validated, and then no bridge can start. -/
theorem windows_leave_no_bridge :
    (smallConfig 524288 16384 (by decide) (by decide)).validate = .ok () ∧
    (smallConfig 524288 16384 (by decide) (by decide)).startBridge sampleSmoltcp = .error .resource := by
  refine ⟨smallConfig_valid (by decide) (by decide), ?_⟩
  rw [Config.startBridge, StackBridge.new, reassemblyManagedBytes_four rfl, checkedAdd_of_le (by decide)]
  exact if_pos (by decide)

end Snolc.Configuration

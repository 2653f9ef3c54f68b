import Snolc.CheckedSlice
import Snolc.GuardedRuns

set_option autoImplicit false

/-!
# The log file

A record goes behind the others as long as the file stays within its limit. Otherwise
the file is compacted: what follows the first newline in its last part is copied to a
temporary file, the record goes behind it, and the temporary file takes the place of
the log. The length of a file is a 64-bit word, and any operation on a file may fail.
-/
namespace Snolc.Logging
open CheckedSlice GuardedRuns

def newline : UInt8 := 10

structure FileBytes where
  bytes : List UInt8
  fits : bytes.length ≤ wordMax

namespace FileBytes

def empty : FileBytes := ⟨[], Nat.zero_le _⟩

/-- The beginning of `bytes` that a write which stops early leaves behind the contents. -/
def behind (file : FileBytes) (bytes : List UInt8) (written : ℕ) : FileBytes where
  bytes := file.bytes ++ bytes.take (min written (wordMax - file.bytes.length))
  fits := by
    have h := file.fits
    rw [List.length_append, List.length_take]
    omega

def append (file : FileBytes) (bytes : List UInt8) : Option FileBytes :=
  if h : (file.bytes ++ bytes).length ≤ wordMax then some ⟨file.bytes ++ bytes, h⟩ else none

end FileBytes

inductive FileOp where
  | metadata
  | openAppend
  | openSource
  | sourceMetadata
  | seek
  | read
  | createTemporary
  | temporaryPermissions
  | permissions
  | copy
  | write
  | sync
  | rename
  | remove
  deriving DecidableEq, Repr

/-- The operations that fail in a call, and how far a write gets that fails. -/
structure Faults where
  fails : FileOp → Bool
  written : ℕ

def noFaults : Faults := ⟨fun _ => false, 0⟩

inductive LogError where
  | invalid
  | io
  deriving DecidableEq, Repr

structure Disk where
  hasFileName : Bool
  log : Option FileBytes
  temporary : Bool

namespace Disk

def contents (d : Disk) : List UInt8 := (d.log.getD .empty).bytes

def metadataLength (d : Disk) (faults : Faults) : ℕ :=
  if faults.fails .metadata then 0 else d.contents.length

def appendBehind (faults : Faults) (record : List UInt8) (d : Disk) : Except LogError Unit × Disk :=
  if faults.fails .openAppend then (.error .io, d)
  else
    let file := d.log.getD .empty
    if faults.fails .write then (.error .io, { d with log := some (file.behind record faults.written) })
    else
      match file.append record with
      | none => (.error .io, { d with log := some (file.behind record record.length) })
      | some file =>
        if faults.fails .sync then (.error .io, { d with log := some file })
        else (.ok (), { d with log := some file })

def skipLine : List UInt8 → List UInt8
  | [] => []
  | byte :: rest => if byte = newline then rest else skipLine rest

def keep (limit : UInt64) (recordLength : ℕ) : ℕ :=
  min (min (limit.toNat * 3) wordMax / 4) (limit.toNat - recordLength)

def retained (limit : UInt64) (recordLength : ℕ) (bytes : List UInt8) : List UInt8 :=
  let keep := keep limit recordLength
  let start := bytes.length - keep
  let rest := bytes.drop start
  (if start ≠ 0 then skipLine rest else rest).take keep

/-- The closure of `compact`: the record goes behind the copy, which then takes the place of the log. -/
def replaceLog (faults : Faults) (copied record : List UInt8) (d : Disk) : Except LogError Unit × Disk :=
  let failed := (.error .io, { d with temporary := faults.fails .remove })
  if faults.fails .copy then failed
  else
    if h : (copied ++ record).length ≤ wordMax then
      if faults.fails .write || faults.fails .sync || faults.fails .rename then failed
      else
        let d := { d with log := some ⟨copied ++ record, h⟩, temporary := false }
        if faults.fails .permissions then (.error .io, d) else (.ok (), d)
    else failed

def compact (faults : Faults) (limit : UInt64) (record : List UInt8) (d : Disk) : Except LogError Unit × Disk :=
  if d.hasFileName = false then (.error .invalid, d)
  else
    match d.log with
    | none => (.error .io, d)
    | some source =>
      if faults.fails .openSource || faults.fails .sourceMetadata || faults.fails .seek then (.error .io, d)
      else if source.bytes.length - keep limit record.length ≠ 0 ∧ faults.fails .read = true then (.error .io, d)
      else if d.temporary || faults.fails .createTemporary then (.error .io, d)
      else if faults.fails .temporaryPermissions then (.error .io, { d with temporary := true })
      else replaceLog faults (retained limit record.length source.bytes) record { d with temporary := true }

def appendRecord (faults : Faults) (limit : UInt64) (record : List UInt8) (d : Disk) : Except LogError Unit × Disk :=
  if wordMax < record.length then (.error .invalid, d)
  else if saturatingSum (d.metadataLength faults) record.length ≤ limit.toNat then appendBehind faults record d
  else compact faults limit record d

/-! ## What compaction keeps -/

/-- A text that is kept of `bytes`: all of it, or an end of it that is empty or begins a line. -/
def KeepsLines (bytes kept : List UInt8) : Prop :=
  kept = bytes ∨ ∃ dropped, bytes = dropped ++ kept ∧ (kept = [] ∨ dropped.getLast? = some newline)

theorem skipLine_begins (bytes : List UInt8) :
    ∃ dropped, bytes = dropped ++ skipLine bytes ∧ (skipLine bytes = [] ∨ dropped.getLast? = some newline) := by
  induction bytes with
  | nil => exact ⟨[], rfl, .inl rfl⟩
  | cons byte rest ih =>
    rw [skipLine]
    split
    · rename_i hbyte
      exact ⟨[byte], rfl, .inr (by rw [hbyte]; rfl)⟩
    · obtain ⟨dropped, hrest, hline⟩ := ih
      refine ⟨byte :: dropped, ?_, ?_⟩
      · rw [List.cons_append, ← hrest]
      · rcases hline with hnil | hlast
        · exact .inl hnil
        · rw [List.getLast?_cons, hlast]
          exact .inr rfl

theorem keep_le (limit : UInt64) (recordLength : ℕ) : keep limit recordLength ≤ limit.toNat - recordLength :=
  Nat.min_le_right _ _

theorem retained_length (limit : UInt64) (recordLength : ℕ) (bytes : List UInt8) :
    (retained limit recordLength bytes).length ≤ limit.toNat - recordLength := by
  have hkeep := keep_le limit recordLength
  unfold retained
  rw [List.length_take]
  omega

theorem retained_lines {limit : UInt64} {recordLength : ℕ} {bytes : List UInt8}
    (h : keep limit recordLength < bytes.length) : KeepsLines bytes (retained limit recordLength bytes) := by
  have hstart : bytes.length - keep limit recordLength ≠ 0 := by omega
  obtain ⟨dropped, hrest, hline⟩ := skipLine_begins (bytes.drop (bytes.length - keep limit recordLength))
  have hshort : (skipLine (bytes.drop (bytes.length - keep limit recordLength))).length ≤ keep limit recordLength := by
    have hlen := congrArg List.length hrest
    rw [List.length_drop, List.length_append] at hlen
    omega
  have hretained : retained limit recordLength bytes =
      skipLine (bytes.drop (bytes.length - keep limit recordLength)) := by
    unfold retained
    dsimp only
    rw [if_pos hstart, List.take_of_length_le hshort]
  rw [hretained]
  refine .inr ⟨bytes.take (bytes.length - keep limit recordLength) ++ dropped, ?_, ?_⟩
  · rw [List.append_assoc, ← hrest, List.take_append_drop]
  · rcases hline with hnil | hlast
    · exact .inl hnil
    · rw [List.getLast?_append, hlast]
      exact .inr rfl

/-! ## One call -/

/-- What a call that succeeds leaves of the file before it. -/
structure Appended (limit : UInt64) (record before after : List UInt8) : Prop where
  bounded : after.length ≤ limit.toNat
  kept : ∃ kept, after = kept ++ record ∧ KeepsLines before kept

theorem appendBehind_ok {faults : Faults} {record : List UInt8} {d next : Disk}
    (h : appendBehind faults record d = (.ok (), next)) :
    next.contents = d.contents ++ record ∧ (d.contents ++ record).length ≤ wordMax := by
  unfold appendBehind at h
  split at h
  · cases h
  dsimp only at h
  split at h
  · cases h
  split at h
  · cases h
  · rename_i file hfile
    unfold FileBytes.append at hfile
    split at hfile
    · rename_i hfits
      cases hfile
      split at h <;> cases h
      exact ⟨rfl, hfits⟩
    · cases hfile

theorem replaceLog_ok {faults : Faults} {copied record : List UInt8} {d next : Disk}
    (h : replaceLog faults copied record d = (.ok (), next)) : next.contents = copied ++ record := by
  unfold replaceLog at h
  dsimp only at h
  split at h
  · cases h
  split at h
  · split at h
    · cases h
    · split at h <;> cases h
      rfl
  · cases h

theorem compact_ok {faults : Faults} {limit : UInt64} {record : List UInt8} {d next : Disk}
    (h : compact faults limit record d = (.ok (), next)) :
    next.contents = retained limit record.length d.contents ++ record := by
  unfold compact at h
  split at h
  · cases h
  split at h
  · cases h
  · rename_i source hsource
    have hcontents : d.contents = source.bytes := by rw [contents, hsource, Option.getD_some]
    split_ifs at h
    all_goals first
      | cases h
      | rw [replaceLog_ok h, hcontents]

theorem appendRecord_appended {faults : Faults} {limit : UInt64} {record : List UInt8} {d next : Disk}
    (hle : record.length ≤ limit.toNat) (hmetadata : faults.fails .metadata = false)
    (h : appendRecord faults limit record d = (.ok (), next)) : Appended limit record d.contents next.contents := by
  have hlimit := limit.toNat_lt
  have hlength : d.metadataLength faults = d.contents.length := by
    rw [metadataLength, hmetadata]
    rfl
  unfold appendRecord at h
  rw [hlength] at h
  split_ifs at h with hlong hroom
  · cases h
  · obtain ⟨hnext, hfits⟩ := appendBehind_ok h
    rw [hnext]
    refine ⟨?_, ⟨d.contents, rfl, .inl rfl⟩⟩
    unfold saturatingSum at hroom
    rw [List.length_append] at hfits ⊢
    omega
  · have hkeep := keep_le limit record.length
    have hretained := retained_length limit record.length d.contents
    rw [compact_ok h]
    refine ⟨?_, ⟨_, rfl, retained_lines ?_⟩⟩
    · rw [List.length_append]
      omega
    · unfold saturatingSum wordMax at hroom
      omega

/-! ## Runs -/

def call (limit : UInt64) (d : Disk) (c : Faults × List UInt8) : Disk := (appendRecord c.1 limit c.2 d).2

structure Clean (d : Disk) : Prop where
  named : d.hasFileName = true
  temporary : d.temporary = false

theorem appendBehind_total {faults : Faults} {record : List UInt8} {d : Disk}
    (hnone : ∀ op, faults.fails op = false) (hfits : (d.contents ++ record).length ≤ wordMax) :
    appendBehind faults record d = (.ok (), { d with log := some ⟨d.contents ++ record, hfits⟩ }) := by
  have happend : (d.log.getD .empty).append record = some ⟨d.contents ++ record, hfits⟩ := dif_pos hfits
  simp [appendBehind, hnone, happend]

theorem replaceLog_total {faults : Faults} {copied record : List UInt8} {d : Disk}
    (hnone : ∀ op, faults.fails op = false) (hfits : (copied ++ record).length ≤ wordMax) :
    replaceLog faults copied record d =
      (.ok (), { d with log := some ⟨copied ++ record, hfits⟩, temporary := false }) := by
  rw [replaceLog]
  simp only [hnone, dif_pos hfits, Bool.or_false, Bool.false_eq_true, if_false]

theorem Clean.appendRecord_ok {d : Disk} (hclean : d.Clean) {faults : Faults} {limit : UInt64} {record : List UInt8}
    (hlimit : limit.toNat < wordMax) (hle : record.length ≤ limit.toNat) (hnone : ∀ op, faults.fails op = false) :
    ∃ next, appendRecord faults limit record d = (.ok (), next) ∧ next.Clean := by
  have hlength : d.metadataLength faults = d.contents.length := by
    rw [metadataLength, hnone]
    rfl
  have hsum : saturatingSum d.contents.length record.length = min (d.contents.length + record.length) wordMax := rfl
  unfold appendRecord
  rw [if_neg (show ¬ wordMax < record.length by omega), hlength]
  split
  · have hfits : (d.contents ++ record).length ≤ wordMax := by
      rw [List.length_append]
      omega
    exact ⟨_, appendBehind_total hnone hfits, hclean.named, hclean.temporary⟩
  · have hretained := retained_length limit record.length d.contents
    have hfits : (retained limit record.length d.contents ++ record).length ≤ wordMax := by
      rw [List.length_append]
      omega
    unfold compact
    rw [if_neg (by simp [hclean.named])]
    split
    · rename_i hlog
      have hempty : d.contents.length = 0 := by rw [contents, hlog]; rfl
      omega
    · rename_i source hsource
      have hcontents : d.contents = source.bytes := by rw [contents, hsource, Option.getD_some]
      rw [hcontents] at hfits
      simp only [hnone, hclean.temporary, Bool.or_false, Bool.false_eq_true, and_false, if_false]
      exact ⟨_, replaceLog_total hnone hfits, hclean.named, rfl⟩

theorem run_clean {d : Disk} (hclean : d.Clean) {limit : UInt64} (hlimit : limit.toNat < wordMax)
    (calls : List (Faults × List UInt8))
    (hcalls : ∀ c ∈ calls, c.2.length ≤ limit.toNat ∧ ∀ op, c.1.fails op = false) :
    (run (call limit) d calls).Clean := by
  induction calls generalizing d with
  | nil => exact hclean
  | cons c calls ih =>
    obtain ⟨hle, hnone⟩ := hcalls c List.mem_cons_self
    obtain ⟨next, hnext, hclean'⟩ := hclean.appendRecord_ok hlimit hle hnone
    rw [run_cons, call, hnext]
    exact ih hclean' fun c hc => hcalls c (List.mem_cons_of_mem _ hc)

end Disk

/-- After any calls, whatever they did to the disk, a call that succeeds and whose look at the
length did not fail leaves a file within the limit: a whole-line end of what was there, and
behind it the record. From a disk without a leftover every call succeeds as long as no
operation fails. -/
theorem log_bounded (limit : UInt64) (d : Disk) (calls : List (Faults × List UInt8))
    (hrecords : ∀ c ∈ calls, c.2.length ≤ limit.toNat) :
    (∀ front c back, calls = front ++ c :: back → c.1.fails .metadata = false →
      ∀ next, Disk.appendRecord c.1 limit c.2 (run (Disk.call limit) d front) = (.ok (), next) →
        Disk.Appended limit c.2 (run (Disk.call limit) d front).contents next.contents) ∧
    (d.Clean → limit.toNat < wordMax → (∀ c ∈ calls, ∀ op, c.1.fails op = false) →
      ∀ front c back, calls = front ++ c :: back →
        ∃ next, Disk.appendRecord c.1 limit c.2 (run (Disk.call limit) d front) = (.ok (), next)) := by
  refine ⟨?_, ?_⟩
  · rintro front c back rfl hmetadata next hnext
    exact Disk.appendRecord_appended (hrecords c (by simp)) hmetadata hnext
  · rintro hclean hlimit hnone front c back rfl
    have hfront : (run (Disk.call limit) d front).Clean := by
      apply Disk.run_clean hclean hlimit
      intro c' hc'
      have hmem : c' ∈ front ++ c :: back := List.mem_append_left _ hc'
      exact ⟨hrecords c' hmem, hnone c' hmem⟩
    obtain ⟨next, hnext, -⟩ := hfront.appendRecord_ok hlimit (hrecords c (by simp)) (hnone c (by simp))
    exact ⟨next, hnext⟩

def sampleDisk : Disk := ⟨true, some ⟨[1, newline, 2, newline], by decide⟩, false⟩

theorem sample_log_bounded :
    ∃ next, Disk.appendRecord noFaults 5 [3, newline] sampleDisk = (.ok (), next) ∧
      next.contents = [2, newline, 3, newline] ∧
      Disk.Appended 5 [3, newline] sampleDisk.contents next.contents := by
  have hcall := (log_bounded 5 sampleDisk [(noFaults, [3, newline])] (by decide)).1 [] (noFaults, [3, newline]) []
    rfl rfl
  exact ⟨_, rfl, by decide, hcall _ rfl⟩

end Snolc.Logging

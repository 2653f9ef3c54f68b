import Snolc.ControlFrames
import Snolc.LogFile

set_option autoImplicit false

namespace Snolc.Logging
open CheckedSlice WireFormat
open Control (boundaryBelow boundaryBelow_spec truncated_text octets_append LongestPrefix)

def truncated : String := "… truncated\n"

def notice : String := "truncated\n"

/-- A `&str`: nothing in memory takes more than `isize::MAX` bytes. -/
structure Record where
  text : String
  small : (octets text).length < 2 ^ 63

def needsNewline (record : String) : Bool := record.toList.getLast? != some '\n'

def truncateRecord (record : String) (limit : ℕ) : List UInt8 :=
  let fullLength := saturatingSum (octets record).length (needsNewline record).toNat
  if fullLength ≤ limit then octets record ++ if needsNewline record then [newline] else []
  else if limit ≤ (octets truncated).length then (octets notice).take (min limit 10)
  else
    let target := limit - (octets truncated).length
    (octets record).take (boundaryBelow record (min target (octets record).length)) ++ octets truncated

def line (record : String) : String := if needsNewline record then record ++ "\n" else record

structure BoundedLine (record : String) (limit : ℕ) (output : List UInt8) : Prop where
  bounded : output.length ≤ limit
  utf8 : ∃ text, octets text = output
  ended : output.getLast? = some newline
  whole : (octets (line record)).length ≤ limit → output = octets (line record)
  cut : limit < (octets (line record)).length → (octets truncated).length ≤ limit →
    ∃ start rest, record = start ++ rest ∧ output = octets start ++ octets truncated
  replaced : limit < (octets (line record)).length → limit < (octets truncated).length → output = octets notice

theorem octets_newline : octets "\n" = [newline] := by decide

theorem truncated_length : (octets truncated).length = 14 := by decide

theorem octets_notice : octets notice = [116, 114, 117, 110, 99, 97, 116, 101, 100, 10] := by decide

theorem octets_line (record : String) :
    octets (line record) = octets record ++ if needsNewline record then [newline] else [] := by
  unfold line
  split
  · rw [octets_append, octets_newline]
  · rw [List.append_nil]

theorem getLast_line (record : String) : (octets (line record)).getLast? = some newline := by
  rw [octets_line]
  cases hneeds : needsNewline record with
  | true => simp
  | false =>
    have hlast : record.toList.getLast? = some '\n' := by simpa [needsNewline] using hneeds
    obtain ⟨front, hfront⟩ := List.getLast?_eq_some_iff.mp hlast
    have hrecord : record = String.ofList front ++ "\n" := by
      rw [← String.ofList_toList (s := record), hfront]
      simp
    rw [hrecord, octets_append, octets_newline]
    simp

theorem fullLength_eq {record : String} (h : (octets record).length < 2 ^ 63) :
    saturatingSum (octets record).length (needsNewline record).toNat = (octets (line record)).length := by
  rw [octets_line, List.length_append]
  cases needsNewline record <;> simp [saturatingSum, wordMax] <;> omega

theorem truncateRecord_whole (r : Record) {limit : ℕ} (h : (octets (line r.text)).length ≤ limit) :
    truncateRecord r.text limit = octets (line r.text) := by
  simp only [truncateRecord, fullLength_eq r.small]
  rw [if_pos h, octets_line]

theorem truncateRecord_notice (r : Record) {limit : ℕ} (h : limit < (octets (line r.text)).length)
    (hlimit : limit ≤ 14) : truncateRecord r.text limit = (octets notice).take (min limit 10) := by
  simp only [truncateRecord, fullLength_eq r.small]
  rw [if_neg (by omega), if_pos (by rw [truncated_length]; exact hlimit)]

theorem truncateRecord_cut (r : Record) {limit : ℕ} (h : limit < (octets (line r.text)).length)
    (hlimit : 14 < limit) :
    ∃ start rest, r.text = start ++ rest ∧ (octets start).length ≤ limit - 14 ∧
      truncateRecord r.text limit = octets start ++ octets truncated := by
  obtain ⟨start, hstart, hlongest⟩ := truncated_text r.text (limit - (octets truncated).length)
  obtain ⟨rest, hrest⟩ := hlongest.starts
  refine ⟨start, rest, hrest, ?_, ?_⟩
  · rw [← truncated_length]
    exact hlongest.fits
  · simp only [truncateRecord, fullLength_eq r.small]
    rw [if_neg (by omega), if_neg (by rw [truncated_length]; omega), Nat.min_comm, ← hstart]

theorem notice_unterminated {limit : ℕ} (h : limit < 10) :
    ((octets notice).take (min limit 10)).getLast? ≠ some newline := by
  rw [octets_notice]
  revert limit
  decide

/-- A record is a bounded line when it is not cut, or when the limit leaves room for the whole notice and is not
the length of the marker. -/
theorem bounded_line_iff (r : Record) (limit : ℕ) :
    BoundedLine r.text limit (truncateRecord r.text limit) ↔
      (octets (line r.text)).length ≤ limit ∨ 10 ≤ limit ∧ limit ≠ 14 := by
  have hnotice : (octets notice).length = 10 := by rw [octets_notice]; rfl
  constructor
  · intro h
    by_contra hnot
    rw [not_or, not_and_or, Nat.not_le, not_not] at hnot
    obtain ⟨hlong, hlimit⟩ := hnot
    have hended := h.ended
    rw [truncateRecord_notice r hlong (by omega)] at hended
    rcases Nat.lt_or_ge limit 10 with hlt | hge
    · exact notice_unterminated hlt hended
    · obtain rfl : limit = 14 := by omega
      obtain ⟨start, rest, -, hcut⟩ := h.cut hlong (by rw [truncated_length])
      have hlen := congrArg List.length hcut
      rw [truncateRecord_notice r hlong (by omega), List.length_append, List.length_take, truncated_length] at hlen
      omega
  · intro h
    rcases Nat.lt_or_ge limit (octets (line r.text)).length with hlong | hfits
    · rcases Nat.lt_or_ge 14 limit with hcut | hshort
      · obtain ⟨start, rest, htext, hlen, hout⟩ := truncateRecord_cut r hlong hcut
        rw [hout]
        refine ⟨?_, ⟨start ++ truncated, octets_append start truncated⟩, ?_, by omega,
          fun _ _ => ⟨start, rest, htext, rfl⟩, ?_⟩
        · rw [List.length_append, truncated_length]
          omega
        · rw [List.getLast?_append]
          rfl
        · rw [truncated_length]
          omega
      · have hout := truncateRecord_notice r hlong hshort
        rw [Nat.min_eq_right (by omega), List.take_of_length_le (by omega)] at hout
        rw [hout]
        refine ⟨by omega, ⟨notice, rfl⟩, by rw [octets_notice]; rfl, by omega, ?_, fun _ _ => rfl⟩
        rw [truncated_length]
        omega
    · rw [truncateRecord_whole r hfits]
      exact ⟨hfits, ⟨line r.text, rfl⟩, getLast_line r.text, fun _ => rfl, by omega, by omega⟩

/-- At a limit of five the line is cut out of the notice, and the next record continues it. -/
theorem short_limit_unterminated :
    truncateRecord "hello" 5 = octets "trunc" ∧ ¬ BoundedLine "hello" 5 (truncateRecord "hello" 5) := by
  have hout : truncateRecord "hello" 5 = octets "trunc" := by decide +kernel
  refine ⟨hout, fun h => ?_⟩
  have hended := h.ended
  rw [hout] at hended
  exact absurd hended (by decide)

end Snolc.Logging

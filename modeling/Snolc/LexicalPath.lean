import Mathlib.Data.List.Basic
import Mathlib.Data.Nat.Notation
import Mathlib.Tactic.Common

set_option autoImplicit false

namespace Snolc.LexicalPath

abbrev Text := List Char

/-- `Path::join`: an absolute part replaces the path. -/
def join (path part : Text) : Text :=
  if part.head? = some '/' then part
  else if path = [] ∨ path.getLast? = some '/' then path ++ part
  else path ++ '/' :: part

def enter (place : List Text) (part : Text) : List Text :=
  if part = [] ∨ part = ['.'] then place
  else if part = ['.', '.'] then place.dropLast
  else place ++ [part]

def lexical (path : Text) : List Text := (path.splitOn '/').foldl enter []

structure Normal (part : Text) : Prop where
  nonempty : part ≠ []
  dot : part ≠ ['.']
  dots : part ≠ ['.', '.']
  slash : '/' ∉ part

/-- An absolute path without anything to resolve. -/
structure Canonical where
  parts : List Text
  normal : ∀ part ∈ parts, Normal part

def Canonical.text (root : Canonical) : Text := '/' :: List.intercalate ['/'] root.parts

theorem enter_normal {part : Text} (h : Normal part) (place : List Text) : enter place part = place ++ [part] := by
  rw [enter, if_neg (not_or.mpr ⟨h.nonempty, h.dot⟩), if_neg h.dots]

theorem foldl_enter_normal {parts : List Text} (h : ∀ part ∈ parts, Normal part) (place : List Text) :
    parts.foldl enter place = place ++ parts := by
  induction parts generalizing place with
  | nil => simp
  | cons part parts ih =>
    rw [List.foldl_cons, enter_normal (h part List.mem_cons_self),
      ih (fun q hq => h q (List.mem_cons_of_mem _ hq)), List.append_assoc, List.singleton_append]

theorem Canonical.lexical_text (root : Canonical) : lexical root.text = root.parts := by
  have hsplit : root.text.splitOn '/' = [] :: (List.intercalate ['/'] root.parts).splitOn '/' :=
    List.splitOn_append_cons_self_of_not_mem List.not_mem_nil _
  rw [lexical, hsplit, List.foldl_cons]
  by_cases hparts : root.parts = []
  · rw [hparts]
    rfl
  · rw [List.splitOn_intercalate '/' (fun part h => (root.normal part h).slash) hparts,
      foldl_enter_normal root.normal]
    rfl

theorem lexical_slash {part : Text} (h : '/' ∉ part) (path : Text) :
    lexical (path ++ '/' :: part) = enter (lexical path) part := by
  rw [lexical, List.splitOn_append_cons_self, List.splitOn_eq_singleton h, List.foldl_append]
  rfl

theorem lexical_join {path part : Text} (hpath : path ≠ []) (h : '/' ∉ part) :
    lexical (join path part) = enter (lexical path) part := by
  have hhead : part.head? ≠ some '/' := fun hx => h (List.mem_of_head? hx)
  rw [join, if_neg hhead]
  split
  · rename_i hend
    obtain ⟨front, rfl⟩ := List.getLast?_eq_some_iff.mp (hend.resolve_left hpath)
    have hfront : lexical (front ++ ['/']) = lexical front := by
      rw [lexical_slash (by simp)]
      rfl
    rw [hfront, List.append_assoc, List.singleton_append, lexical_slash h]
  · exact lexical_slash h path

theorem join_ne_nil {path part : Text} (hpath : path ≠ []) : join path part ≠ [] := by
  unfold join
  split
  · rename_i hhead
    rintro rfl
    cases hhead
  · split <;> simp [hpath]

theorem enter_length_le (place : List Text) (part : Text) : (enter place part).length ≤ place.length + 1 := by
  unfold enter
  split_ifs
  · omega
  · simp only [List.length_dropLast]
    omega
  · simp

theorem enter_length_of_dots {part : Text} (h : part = ['.'] ∨ part = ['.', '.']) (place : List Text) :
    (enter place part).length ≤ place.length := by
  rcases h with rfl | rfl <;> simp [enter]

end Snolc.LexicalPath

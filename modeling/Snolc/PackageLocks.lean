import Snolc.LexicalPath

set_option autoImplicit false

/-!
# Package locks

An identity `owner/name@version` is checked character by character, and its lock is
looked for under the package root by joining the three texts. The characters may spell
`.` and `..`, which a path takes for directions and not for names.
-/
namespace Snolc.Package
open LexicalPath

def splitOnce (separator : Char) : Text → Option (Text × Text)
  | [] => none
  | c :: rest =>
    if c = separator then some ([], rest)
    else (splitOnce separator rest).map fun halves => (c :: halves.1, halves.2)

def rsplitOnce (separator : Char) (text : Text) : Option (Text × Text) :=
  (splitOnce separator text.reverse).map fun halves => (halves.2.reverse, halves.1.reverse)

def bytes (text : Text) : List UInt8 := text.flatMap String.utf8EncodeChar

def packageCharacter (byte : UInt8) : Bool :=
  48 ≤ byte && byte ≤ 57 || 65 ≤ byte && byte ≤ 90 || 97 ≤ byte && byte ≤ 122 || byte == 45 || byte == 95 || byte == 46

def versionCharacter (byte : UInt8) : Bool := packageCharacter byte || byte == 43

structure PackageIdentity where
  owner : Text
  name : Text
  version : Text
  deriving DecidableEq

inductive ModuleConfigError where
  | package
  deriving DecidableEq

def PackageIdentity.fromStr (value : Text) : Except ModuleConfigError PackageIdentity :=
  match rsplitOnce '@' value with
  | none => .error .package
  | some (path, version) =>
    match splitOnce '/' path with
    | none => .error .package
    | some (owner, name) =>
      if owner = [] ∨ name = [] ∨ '/' ∈ name ∨ version = [] ∨ (bytes owner).all packageCharacter = false ∨
          (bytes name).all packageCharacter = false ∨ (bytes version).all versionCharacter = false then
        .error .package
      else .ok ⟨owner, name, version⟩

def lockPath (root : Text) (package : PackageIdentity) : Text :=
  join (join (join (join root ("locks".toList)) package.owner) package.name) (package.version ++ ".toml".toList)

/-- The lock of a package is in the directory of its owner and name, and is the lock of no
    other package. -/
structure Isolated (root : Canonical) (package : PackageIdentity) : Prop where
  placed : lexical (lockPath root.text package) =
    root.parts ++ ["locks".toList, package.owner, package.name, package.version ++ ".toml".toList]
  alone : ∀ value other, PackageIdentity.fromStr value = .ok other →
    lexical (lockPath root.text other) = lexical (lockPath root.text package) → other = package

def Named (package : PackageIdentity) : Prop :=
  package.owner ≠ ['.'] ∧ package.owner ≠ ['.', '.'] ∧ package.name ≠ ['.'] ∧ package.name ≠ ['.', '.']

theorem splitOnce_some {separator : Char} {text front back : Text}
    (h : splitOnce separator text = some (front, back)) : separator ∉ front := by
  induction text generalizing front with
  | nil => cases h
  | cons c rest ih =>
    rw [splitOnce] at h
    split at h
    · cases h
      exact List.not_mem_nil
    · rename_i hne
      obtain ⟨⟨front', back'⟩, hrest, heq⟩ := Option.map_eq_some_iff.mp h
      cases heq
      exact List.not_mem_cons_of_ne_of_not_mem (Ne.symm hne) (ih hrest)

theorem slash_not_mem {text : Text} (h : (bytes text).all versionCharacter = true) : '/' ∉ text := by
  intro hmem
  have hbyte : (47 : UInt8) ∈ bytes text := List.mem_flatMap.mpr ⟨'/', hmem, by decide⟩
  exact absurd (List.all_eq_true.mp h 47 hbyte) (by decide)

structure Accepted (package : PackageIdentity) : Prop where
  owner : package.owner ≠ [] ∧ '/' ∉ package.owner
  name : package.name ≠ [] ∧ '/' ∉ package.name
  version : '/' ∉ package.version

theorem fromStr_accepted {value : Text} {package : PackageIdentity}
    (h : PackageIdentity.fromStr value = .ok package) : Accepted package := by
  unfold PackageIdentity.fromStr at h
  split at h
  · cases h
  · split at h
    · cases h
    · rename_i owner name hsplit
      split at h
      · cases h
      · rename_i hchecks
        simp only [not_or, Bool.not_eq_false] at hchecks
        obtain ⟨howner, hname, hslash, -, -, -, hversion⟩ := hchecks
        cases h
        exact ⟨⟨howner, splitOnce_some hsplit⟩, ⟨hname, hslash⟩, slash_not_mem hversion⟩

theorem locks_normal : Normal "locks".toList := by
  constructor <;> decide

namespace Accepted
variable {package : PackageIdentity}

theorem file_normal (h : Accepted package) : Normal (package.version ++ ".toml".toList) := by
  have hlong {text : Text} (ht : text.length < 5) : package.version ++ ".toml".toList ≠ text := by
    rintro rfl
    have htoml : ".toml".toList.length = 5 := rfl
    rw [List.length_append] at ht
    omega
  refine ⟨hlong (by decide), hlong (by decide), hlong (by decide), ?_⟩
  rw [List.mem_append, not_or]
  exact ⟨h.version, by decide⟩

theorem owner_normal (h : Accepted package) (hn : Named package) : Normal package.owner :=
  ⟨h.owner.1, hn.1, hn.2.1, h.owner.2⟩

theorem name_normal (h : Accepted package) (hn : Named package) : Normal package.name :=
  ⟨h.name.1, hn.2.2.1, hn.2.2.2, h.name.2⟩

theorem lexical_lockPath (h : Accepted package) (root : Canonical) :
    lexical (lockPath root.text package) =
      enter (enter (root.parts ++ ["locks".toList]) package.owner) package.name ++
        [package.version ++ ".toml".toList] := by
  have hroot : root.text ≠ [] := List.cons_ne_nil _ _
  rw [lockPath, lexical_join (join_ne_nil (join_ne_nil (join_ne_nil hroot))) h.file_normal.slash,
    enter_normal h.file_normal, lexical_join (join_ne_nil (join_ne_nil hroot)) h.name.2,
    lexical_join (join_ne_nil hroot) h.owner.2, lexical_join hroot locks_normal.slash, root.lexical_text,
    enter_normal locks_normal]

theorem lexical_named (h : Accepted package) (hn : Named package) (root : Canonical) :
    lexical (lockPath root.text package) =
      root.parts ++ ["locks".toList, package.owner, package.name, package.version ++ ".toml".toList] := by
  rw [h.lexical_lockPath root, enter_normal (h.owner_normal hn), enter_normal (h.name_normal hn)]
  simp only [List.append_assoc, List.cons_append, List.nil_append]

/-- An owner or a name that is a direction leaves the path short. -/
theorem lexical_short (h : Accepted package) (hn : ¬ Named package) (root : Canonical) :
    (lexical (lockPath root.text package)).length < root.parts.length + 4 := by
  have hlocks : (root.parts ++ ["locks".toList]).length = root.parts.length + 1 := by simp
  have howner := enter_length_le (root.parts ++ ["locks".toList]) package.owner
  have hname := enter_length_le (enter (root.parts ++ ["locks".toList]) package.owner) package.name
  rw [h.lexical_lockPath root, List.length_append, List.length_singleton]
  by_cases hdots : package.owner = ['.'] ∨ package.owner = ['.', '.']
  · have hle := enter_length_of_dots hdots (root.parts ++ ["locks".toList])
    omega
  · have hdots' : package.name = ['.'] ∨ package.name = ['.', '.'] := by
      unfold Named at hn
      tauto
    have hle := enter_length_of_dots hdots' (enter (root.parts ++ ["locks".toList]) package.owner)
    omega

end Accepted

/-- For every root and every accepted text, the lock is in the place of its owner and name and
    belongs to no other package exactly when neither of them is `.` or `..`. -/
theorem locks_isolated_iff (root : Canonical) {value : Text} {package : PackageIdentity}
    (h : PackageIdentity.fromStr value = .ok package) : Isolated root package ↔ Named package := by
  have hp := fromStr_accepted h
  constructor
  · intro hi
    by_contra hn
    have hshort := hp.lexical_short hn root
    rw [hi.placed] at hshort
    simp at hshort
  · intro hn
    refine ⟨hp.lexical_named hn root, fun value' other h' hsame => ?_⟩
    have ho := fromStr_accepted h'
    rw [hp.lexical_named hn root] at hsame
    have hother : Named other := by
      by_contra hno
      have hshort := ho.lexical_short hno root
      rw [hsame] at hshort
      simp at hshort
    rw [ho.lexical_named hother root] at hsame
    have htail := List.append_cancel_left hsame
    simp only [List.cons.injEq, true_and, and_true] at htail
    obtain ⟨howner, hname, hfile⟩ := htail
    have hversion := List.append_cancel_right hfile
    cases other
    cases package
    simp_all

def sampleRoot : Canonical := ⟨["p".toList], by
  intro part hpart
  rw [List.mem_singleton.mp hpart]
  constructor <;> decide⟩

theorem tls_lock_isolated :
    PackageIdentity.fromStr "core/tls@1.0".toList = .ok ⟨"core".toList, "tls".toList, "1.0".toList⟩ ∧
    Isolated sampleRoot ⟨"core".toList, "tls".toList, "1.0".toList⟩ := by
  have h : PackageIdentity.fromStr "core/tls@1.0".toList = .ok ⟨"core".toList, "tls".toList, "1.0".toList⟩ := rfl
  refine ⟨h, (locks_isolated_iff sampleRoot h).mpr ?_⟩
  unfold Named
  decide

/-- An owner and a name of two dots lead out of the root; one dot shares a lock. -/
theorem dotted_locks_escape :
    PackageIdentity.fromStr "../..@1".toList = .ok ⟨"..".toList, "..".toList, "1".toList⟩ ∧
    lexical (lockPath sampleRoot.text ⟨"..".toList, "..".toList, "1".toList⟩) = ["1.toml".toList] ∧
    PackageIdentity.fromStr "./a@1".toList = .ok ⟨".".toList, "a".toList, "1".toList⟩ ∧
    PackageIdentity.fromStr "a/.@1".toList = .ok ⟨"a".toList, ".".toList, "1".toList⟩ ∧
    lexical (lockPath sampleRoot.text ⟨".".toList, "a".toList, "1".toList⟩) =
      lexical (lockPath sampleRoot.text ⟨"a".toList, ".".toList, "1".toList⟩) ∧
    ¬ ∀ (root : Canonical) (value : Text) (package : PackageIdentity),
      PackageIdentity.fromStr value = .ok package → Isolated root package := by
  refine ⟨rfl, by decide +kernel, rfl, rfl, by decide +kernel, fun hall => ?_⟩
  have hplaced := (hall sampleRoot "../..@1".toList ⟨"..".toList, "..".toList, "1".toList⟩ rfl).placed
  exact absurd hplaced (by decide +kernel)

end Snolc.Package

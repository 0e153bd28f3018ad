import Mathlib.Data.List.Infix
import Mathlib.Data.List.SplitOn

/-! Paths of a tree of directories, as bytes: names with slashes between them, and where a path leads when
`.` stays and `..` goes up. -/

namespace CyberAccountant.Library.Path

def slash : UInt8 := 47

def dot : UInt8 := 46

/-- The names with slashes between them. -/
def join (names : List (List UInt8)) : List UInt8 := [slash].intercalate names

/-- The names between the slashes. -/
def names (path : List UInt8) : List (List UInt8) := path.splitOn slash

/-- A name that an entry of a directory can have. -/
def Proper (name : List UInt8) : Prop := name ≠ [] ∧ name ≠ [dot] ∧ name ≠ [dot, dot]

instance (name : List UInt8) : Decidable (Proper name) := inferInstanceAs (Decidable (_ ∧ _))

/-- One name further. -/
def follow (directory : List (List UInt8)) (name : List UInt8) : List (List UInt8) :=
  if name = [] ∨ name = [dot] then directory
  else if name = [dot, dot] then directory.dropLast
  else directory ++ [name]

/-- Where a path leads from the root. -/
def resolve (path : List UInt8) : List (List UInt8) := (names path).foldl follow []

/-- The path leads to something inside the directory. -/
def Below (directory : List (List UInt8)) (path : List UInt8) : Prop :=
  ∃ rest, rest ≠ [] ∧ resolve path = directory ++ rest

/-- Two dots stand next to each other. -/
def HasDots (bytes : List UInt8) : Prop := [dot, dot] <:+: bytes

instance (bytes : List UInt8) : Decidable (HasDots bytes) := inferInstanceAs (Decidable (_ <:+: _))

theorem join_cons (name next : List UInt8) (rest : List (List UInt8)) :
    join (name :: next :: rest) = name ++ slash :: join (next :: rest) := by
  simp [join, List.intercalate_cons_cons]

/-- A path has no byte but those of its names and the slash. -/
theorem mem_join {b : UInt8} (hb : b ≠ slash) {ns : List (List UInt8)} : b ∈ join ns ↔ ∃ name ∈ ns, b ∈ name := by
  induction ns with
  | nil => simp [join]
  | cons name rest ih =>
    cases rest with
    | nil => simp [join, List.intercalate]
    | cons next rest =>
      rw [join_cons, List.mem_append, List.mem_cons, ih, List.exists_mem_cons_iff (a := name), or_iff_right hb]

theorem names_join {ns : List (List UInt8)} (h : ∀ name ∈ ns, slash ∉ name) (hSome : ns ≠ []) :
    names (join ns) = ns :=
  List.splitOn_intercalate slash h hSome

/-- A path of proper names leads where it says. -/
theorem resolve_join {ns : List (List UInt8)} (h : ∀ name ∈ ns, slash ∉ name) (hSome : ns ≠ [])
    (hProper : ∀ name ∈ ns, Proper name) : resolve (join ns) = ns := by
  have hFollow : ∀ (rest directory : List (List UInt8)), (∀ name ∈ rest, Proper name) →
      rest.foldl follow directory = directory ++ rest := by
    intro rest
    induction rest with
    | nil => simp
    | cons name rest ih =>
      intro directory hRest
      rw [List.forall_mem_cons] at hRest
      obtain ⟨⟨hNonempty, hHere, hUp⟩, hRest⟩ := hRest
      have hNext : follow directory name = directory ++ [name] := by simp [follow, hNonempty, hHere, hUp]
      rw [List.foldl_cons, hNext, ih _ hRest, List.append_assoc, List.singleton_append]
  rw [resolve, names_join h hSome, hFollow ns [] hProper, List.nil_append]

/-- Dots next to each other are on one side of any other byte. -/
theorem hasDots_append_cons {b : UInt8} (hb : b ≠ dot) {xs ys : List UInt8} :
    HasDots (xs ++ b :: ys) ↔ HasDots xs ∨ HasDots ys := by
  constructor
  · intro h
    rcases List.infix_append_iff_ne_nil.mp h with hLeft | hRight | ⟨l₁, l₂, hl₁, hl₂, hSplit, -, hPrefix⟩
    · exact .inl hLeft
    · rcases List.infix_cons_iff.mp hRight with hStart | hTail
      · exact absurd (List.cons_prefix_cons.mp hStart).1.symm hb
      · exact .inr hTail
    · -- the byte would be one of the dots
      exfalso
      obtain ⟨c, rest, rfl⟩ := List.exists_cons_of_ne_nil hl₂
      have hByte : c = b := (List.cons_prefix_cons.mp hPrefix).1
      have hMem : c ∈ [dot, dot] := by rw [hSplit]; simp
      rw [hByte] at hMem
      exact hb (by simpa using hMem)
  · rintro (h | h)
    · exact h.trans (List.prefix_append _ _).isInfix
    · exact h.trans ((List.suffix_cons b ys).trans (List.suffix_append _ _)).isInfix

theorem hasDots_join {ns : List (List UInt8)} : HasDots (join ns) ↔ ∃ name ∈ ns, HasDots name := by
  induction ns with
  | nil => simp [join, HasDots]
  | cons name rest ih =>
    cases rest with
    | nil => simp [join, List.intercalate]
    | cons next rest => rw [join_cons, hasDots_append_cons (by decide), ih, List.exists_mem_cons_iff (a := name)]

end CyberAccountant.Library.Path

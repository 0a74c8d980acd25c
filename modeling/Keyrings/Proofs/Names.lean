import Keyrings.Keyring
import Keyrings.Proofs.FileTree

/-! The names that a keyring uses in its directory: its context, and the context with the ending of
the marker or of a temporary file. The full stop that starts an ending is in no context, so that
these are names, and no two of them are the same. For the same reason a context has no extension
that a temporary file could take the place of: what is written as a new extension is an ending. -/

namespace Keyrings

theorem Uuid.mem_digits {bits n : Nat} {c : Char} (h : c ∈ digits bits n) :
    ∃ d < 16, c = Hex.digit d := by
  induction n generalizing bits with
  | zero => simp [digits] at h
  | succ n ih =>
    rcases List.mem_append.mp h with h | h
    · exact ih h
    · exact ⟨bits % 16, by omega, by simpa using h⟩

/-- The text of an identifier is made of digits and hyphens. -/
theorem Uuid.mem_text {u : Uuid} {c : Char} (h : c ∈ u.text) :
    c = '-' ∨ ∃ d < 16, c = Hex.digit d := by
  have hgroup : ∀ {n m : Nat}, c ∈ ((digits u.bits.toNat 32).drop n).take m →
      ∃ d < 16, c = Hex.digit d :=
    fun hm => mem_digits (List.mem_of_mem_drop (List.mem_of_mem_take hm))
  simp only [text, List.mem_append, List.mem_cons] at h
  rcases h with h | rfl | h | rfl | h | rfl | h | rfl | h
  · exact Or.inr (mem_digits (List.mem_of_mem_take h))
  · exact Or.inl rfl
  · exact Or.inr (hgroup h)
  · exact Or.inl rfl
  · exact Or.inr (hgroup h)
  · exact Or.inl rfl
  · exact Or.inr (hgroup h)
  · exact Or.inl rfl
  · exact Or.inr (mem_digits (List.mem_of_mem_drop h))

theorem Uuid.not_mem_text (u : Uuid) {c : Char} (hc : c ≠ '-')
    (hdigit : ∀ n ∈ List.range 16, c ≠ Hex.digit n) : c ∉ u.text := by
  intro h
  rcases mem_text h with h | ⟨n, hn, h⟩
  · exact hc h
  · exact hdigit n (List.mem_range.mpr hn) h

namespace Keyring

/-- What the names of temporary files end in. -/
def temporaryEnding (u : Uuid) : List Char := ".tmp.".toList ++ u.text

theorem not_mem_temporaryEnding (u : Uuid) :
    '/' ∉ temporaryEnding u ∧ '\x00' ∉ temporaryEnding u := by
  have hsep := u.not_mem_text (c := '/') (by decide) (by decide)
  have hnul := u.not_mem_text (c := '\x00') (by decide) (by decide)
  have hfront : '/' ∉ ".tmp.".toList ∧ '\x00' ∉ ".tmp.".toList := by decide
  exact ⟨fun hm => (List.mem_append.mp hm).elim hfront.1 hsep,
    fun hm => (List.mem_append.mp hm).elim hfront.2 hnul⟩

theorem ne_append_markerEnding (context : List Char) : context ≠ context ++ markerEnding := by
  have hne : markerEnding ≠ [] := by decide
  simpa using hne

theorem ne_append_temporaryEnding (context : List Char) (u : Uuid) :
    context ≠ context ++ temporaryEnding u := by
  have hne : temporaryEnding u ≠ [] := List.cons_ne_nil '.' ("tmp.".toList ++ u.text)
  simpa using hne

/-- The second characters of the endings differ. -/
theorem markerEnding_ne_temporaryEnding (u : Uuid) : markerEnding ≠ temporaryEnding u := by
  intro he
  have hm : markerEnding[1]? = some 'l' := by decide
  have ht : (temporaryEnding u)[1]? = some 't' := rfl
  rw [he, ht] at hm
  exact absurd hm (by decide)

/-- A keyring has the paths of a context below a directory. -/
structure IsOf (ring : Keyring) (directory : Path) (context : List Char) : Prop where
  valid : Context.isValid context = true
  file_eq : ring.file = directory.join ⟨context⟩
  marker_eq : ring.marker = ring.file.extend markerEnding

/-- What every keyring that is opened is like. -/
def Proper (ring : Keyring) : Prop := ∃ directory context, ring.IsOf directory context

theorem isOf_inDirectory {context : List Char} (h : Context.isValid context = true)
    (directory : Path) (policy : LockPolicy) :
    (inDirectory directory context policy).IsOf directory context :=
  ⟨h, rfl, rfl⟩

namespace IsOf

variable {ring : Keyring} {directory : Path} {context : List Char} (h : ring.IsOf directory context)
include h

theorem with_keys (keys : List Key) : IsOf { ring with keys := keys } directory context :=
  ⟨h.valid, h.file_eq, h.marker_eq⟩

theorem isName : IsName context := by
  have hname : IsName (context ++ []) := Context.isName h.valid (by simp) (by simp)
  rwa [List.append_nil] at hname

theorem isName_marker : IsName (context ++ markerEnding) :=
  Context.isName h.valid (by decide) (by decide)

theorem isName_temporary (u : Uuid) : IsName (context ++ temporaryEnding u) :=
  Context.isName h.valid (not_mem_temporaryEnding u).1 (not_mem_temporaryEnding u).2

theorem marker_join : ring.marker = directory.join ⟨context ++ markerEnding⟩ := by
  rw [h.marker_eq, h.file_eq, Path.extend_join directory h.isName h.isName_marker]

/-- The new extension of a temporary file replaces nothing. -/
theorem temporary_eq (u : Uuid) :
    temporaryFor ring.file u = ring.file.extend (temporaryEnding u) := by
  have hne : "tmp.".toList ++ u.text ≠ [] := List.cons_ne_nil 't' ("mp.".toList ++ u.text)
  rw [temporaryFor, h.file_eq, Path.withExtension_join_of_not_mem directory h.isName
    (Context.not_mem h.valid (by decide)) hne]
  rfl

theorem temporary_join (u : Uuid) :
    temporaryFor ring.file u = directory.join ⟨context ++ temporaryEnding u⟩ := by
  rw [h.temporary_eq, h.file_eq, Path.extend_join directory h.isName (h.isName_temporary u)]

theorem file_endsInSeparator : ring.file.endsInSeparator = false := by
  rw [h.file_eq, Path.endsInSeparator_join directory h.isName]

theorem marker_endsInSeparator : ring.marker.endsInSeparator = false := by
  rw [h.marker_join, Path.endsInSeparator_join directory h.isName_marker]

theorem temporary_endsInSeparator (u : Uuid) :
    (temporaryFor ring.file u).endsInSeparator = false := by
  rw [h.temporary_join, Path.endsInSeparator_join directory (h.isName_temporary u)]

/-! ### Three different places -/

variable {t : FileTree} {cwd k l : Location} {u : Uuid}

theorem file_ne_marker (hk : t.locate cwd ring.file = .ok (.name k))
    (hl : t.locate cwd ring.marker = .ok (.name l)) : k ≠ l := by
  rw [h.file_eq] at hk
  rw [h.marker_join] at hl
  exact FileTree.locate_join_ne h.isName h.isName_marker (ne_append_markerEnding context) hk hl

theorem file_ne_temporary (hk : t.locate cwd ring.file = .ok (.name k))
    (hl : t.locate cwd (temporaryFor ring.file u) = .ok (.name l)) : k ≠ l := by
  rw [h.temporary_join] at hl
  rw [h.file_eq] at hk
  exact FileTree.locate_join_ne h.isName (h.isName_temporary u)
    (ne_append_temporaryEnding context u) hk hl

theorem marker_ne_temporary (hk : t.locate cwd ring.marker = .ok (.name k))
    (hl : t.locate cwd (temporaryFor ring.file u) = .ok (.name l)) : k ≠ l := by
  rw [h.temporary_join] at hl
  rw [h.marker_join] at hk
  exact FileTree.locate_join_ne h.isName_marker (h.isName_temporary u)
    (by simpa using markerEnding_ne_temporaryEnding u) hk hl

/-- The contents of a keyring's file depend on the directories and on its place alone. -/
theorem contents_congr {v : FileTree} (hsame : t.SameDirectories v)
    (hlook : ∀ l, t.locate cwd ring.file = .ok (.name l) → v.lookup l = t.lookup l) :
    v.contents cwd ring.file = t.contents cwd ring.file := by
  rw [h.file_eq] at hlook ⊢
  exact FileTree.contents_congr h.isName hsame hlook

end IsOf

end Keyring

end Keyrings

import Keyrings.Context
import Keyrings.Path
import Mathlib.Data.List.TakeWhile
import Mathlib.Tactic.SplitIfs

/-! Paths below a directory. A name put below a directory is the last name of the path, and the
names before it are those of the directory. Contexts are names, and stay names under any ending
without a separator. -/

namespace Keyrings

/-- A text that names an entry of a directory, rather than a way through several of them. -/
structure IsName (name : List Char) : Prop where
  ne_nil : name ≠ []
  no_separator : '/' ∉ name
  no_nul : '\x00' ∉ name
  ne_dot : name ≠ ['.']
  ne_dots : name ≠ ['.', '.']

/-- A character that contexts may not have is in none. -/
theorem Context.not_mem {context : List Char} (h : Context.isValid context = true) {c : Char}
    (hc : allows c = false) : c ∉ context := by
  obtain ⟨-, hall⟩ : context ≠ [] ∧ ∀ c ∈ context, allows c = true := by simpa [isValid] using h
  intro hm
  rw [hall c hm] at hc
  contradiction

/-- A context is a name, also with an ending that has no separator. -/
theorem Context.isName {context ending : List Char} (h : Context.isValid context = true)
    (hs : '/' ∉ ending) (hn : '\x00' ∉ ending) : IsName (context ++ ending) := by
  have hne : context ≠ [] := by
    rintro rfl
    contradiction
  obtain ⟨c, rest, rfl⟩ := List.exists_cons_of_ne_nil hne
  have hdot : c ≠ '.' := fun he => Context.not_mem h (c := '.') (by decide) (by simp [he])
  refine ⟨by simp, ?_, ?_, ?_, ?_⟩
  · exact fun hm => (List.mem_append.mp hm).elim (Context.not_mem h (by decide)) hs
  · exact fun hm => (List.mem_append.mp hm).elim (Context.not_mem h (by decide)) hn
  · exact fun he => hdot (List.cons.inj he).1
  · exact fun he => hdot (List.cons.inj he).1

namespace Path

/-! ### Pieces between separators -/

theorem pieces_ne_nil (cs : List Char) : pieces cs ≠ [] := by
  cases cs with
  | nil => simp [pieces]
  | cons c cs =>
    rw [pieces]
    split_ifs
    · simp
    · split <;> simp

theorem pieces_name {name : List Char} (h : '/' ∉ name) : pieces name = [name] := by
  induction name with
  | nil => rfl
  | cons c name ih =>
    have hc : c ≠ '/' := fun he => h (by simp [he])
    have htail : '/' ∉ name := fun hm => h (List.mem_cons_of_mem c hm)
    rw [pieces, if_neg hc, ih htail]

/-- A separator ends one piece and starts another. -/
theorem pieces_append (cs ds : List Char) : pieces (cs ++ '/' :: ds) = pieces cs ++ pieces ds := by
  induction cs with
  | nil => simp [pieces]
  | cons c cs ih =>
    rw [List.cons_append, pieces, pieces, ih]
    split_ifs
    · rfl
    · cases hp : pieces cs with
      | nil => exact absurd hp (pieces_ne_nil cs)
      | cons piece rest => rfl

/-! ### Names below a directory -/

/-- The text of a directory with the separator that names below it need. -/
def stem (dir : Path) : List Char :=
  if dir.text.isEmpty || dir.endsInSeparator then dir.text else dir.text ++ ['/']

/-- A stem is empty or ends in a separator, and has the names of its directory. -/
theorem stem_cases (dir : Path) : dir.text = [] ∧ dir.stem = [] ∨
    ∃ front, dir.stem = front ++ ['/'] ∧ dir.names = (pieces front).filter (!·.isEmpty) := by
  unfold stem
  cases he : dir.text.isEmpty with
  | true =>
    have hnil : dir.text = [] := List.isEmpty_iff.mp he
    exact Or.inl ⟨hnil, by simp [hnil]⟩
  | false =>
    right
    cases hs : dir.endsInSeparator with
    | true =>
      have hlast : dir.text.getLast? = some '/' := by simpa [endsInSeparator] using hs
      obtain ⟨front, hfront⟩ := List.getLast?_eq_some_iff.mp hlast
      have hpieces : pieces dir.text = pieces front ++ [[]] := by
        rw [hfront, pieces_append]
        rfl
      exact ⟨front, by simpa using hfront, by simp [names, hpieces]⟩
    | false => exact ⟨dir.text, by simp, rfl⟩

variable {name : List Char} (dir : Path)

theorem text_join (h : IsName name) : (dir.join ⟨name⟩).text = dir.stem ++ name := by
  have habs : isAbsolute ⟨name⟩ = false := by
    obtain ⟨c, rest, rfl⟩ := List.exists_cons_of_ne_nil h.ne_nil
    have hc : c ≠ '/' := fun he => h.no_separator (by simp [he])
    simp [isAbsolute, hc]
  simp only [join, habs, Bool.false_eq_true, if_false, stem]
  split_ifs
  · rfl
  · simp

theorem names_join (h : IsName name) : (dir.join ⟨name⟩).names = dir.names ++ [name] := by
  have hname : (pieces name).filter (!·.isEmpty) = [name] := by
    simp [pieces_name h.no_separator, h.ne_nil]
  rw [names, text_join dir h]
  rcases stem_cases dir with ⟨hd, hs⟩ | ⟨front, hs, hd⟩
  · rw [hs, List.nil_append, hname, names, hd]
    rfl
  · rw [hs, hd, List.append_assoc, List.singleton_append, pieces_append, List.filter_append, hname]

theorem endsInSeparator_join (h : IsName name) : (dir.join ⟨name⟩).endsInSeparator = false := by
  obtain ⟨front, c, hname⟩ := (List.eq_nil_or_concat name).resolve_left h.ne_nil
  rw [List.concat_eq_append] at hname
  have hc : c ≠ '/' := fun he => h.no_separator (by simp [hname, he])
  rw [endsInSeparator, text_join dir h, hname, ← List.append_assoc]
  simp [hc]

theorem isAbsolute_join (h : IsName name) : (dir.join ⟨name⟩).isAbsolute = dir.isAbsolute := by
  rw [isAbsolute, isAbsolute, text_join dir h, stem]
  cases hd : dir.text with
  | nil =>
    have hn : name.head? ≠ some '/' := fun he => h.no_separator (List.mem_of_head? he)
    simp [hn]
  | cons c cs => split_ifs <;> simp

/-- An ending goes to the last name. -/
theorem extend_join (h : IsName name) {ending : List Char} (he : IsName (name ++ ending)) :
    (dir.join ⟨name⟩).extend ending = dir.join ⟨name ++ ending⟩ := by
  have htext := text_join dir he
  rw [extend, text_join dir h, List.append_assoc, ← htext]

/-! ### Extensions -/

theorem withoutExtension_of_not_mem {name : List Char} (h : '.' ∉ name) :
    withoutExtension name = name := by
  have hnone : name.reverse.dropWhile (· ≠ '.') = [] := by
    refine List.dropWhile_eq_nil_iff.mpr fun c hc => ?_
    have hne : c ≠ '.' := fun he => h (he ▸ List.mem_reverse.mp hc)
    simpa using hne
  rw [withoutExtension, hnone]

/-- Pieces put together again, each with a separator behind it. -/
theorem flatMap_pieces (cs : List Char) : (pieces cs).flatMap (· ++ ['/']) = cs ++ ['/'] := by
  induction cs with
  | nil => rfl
  | cons c cs ih =>
    rw [pieces]
    split_ifs with hc
    · simp [ih, hc]
    · cases hp : pieces cs with
      | nil => exact absurd hp (pieces_ne_nil cs)
      | cons piece rest =>
        rw [hp] at ih
        simpa using ih

/-- A name is the last piece of a path that it ends. The pieces before it make up the rest. -/
theorem pieces_join (h : IsName name) : ∃ before, pieces (dir.join ⟨name⟩).text = before ++ [name] ∧
    before.flatMap (· ++ ['/']) = dir.stem := by
  rw [text_join dir h]
  rcases stem_cases dir with ⟨-, hs⟩ | ⟨front, hs, -⟩
  · exact ⟨[], by rw [hs, List.nil_append, pieces_name h.no_separator, List.nil_append],
      by rw [hs, List.flatMap_nil]⟩
  · refine ⟨pieces front, ?_, by rw [flatMap_pieces, hs]⟩
    rw [hs, List.append_assoc, List.singleton_append, pieces_append, pieces_name h.no_separator]

/-- An extension takes the place of what follows the last full stop of the last name. -/
theorem withExtension_join (h : IsName name) {extension : List Char} (hne : extension ≠ []) :
    ((dir.join ⟨name⟩).withExtension extension).text =
      dir.stem ++ withoutExtension name ++ '.' :: extension := by
  obtain ⟨before, hpieces, hstem⟩ := pieces_join dir h
  have hkept : decide (name = [] ∨ name = ['.']) = false := by simp [h.ne_nil, h.ne_dot]
  rw [withExtension, hpieces, List.reverse_append, List.reverse_singleton, List.singleton_append,
    List.dropWhile_cons_of_neg (by simpa using hkept)]
  simp [h.ne_dots, hne, hstem]

/-- Thus it is added to a name that has no full stop. -/
theorem withExtension_join_of_not_mem (h : IsName name) (hdot : '.' ∉ name) {extension : List Char}
    (hne : extension ≠ []) :
    (dir.join ⟨name⟩).withExtension extension = (dir.join ⟨name⟩).extend ('.' :: extension) := by
  have htext := withExtension_join dir h hne
  rw [withoutExtension_of_not_mem hdot, ← text_join dir h] at htext
  exact congrArg Path.mk htext

/-- With a full stop in their names, two files can get the same path. -/
example : (⟨"/h/a.b".toList⟩ : Path).withExtension "tmp".toList =
    (⟨"/h/a.c".toList⟩ : Path).withExtension "tmp".toList := by decide

end Path

end Keyrings

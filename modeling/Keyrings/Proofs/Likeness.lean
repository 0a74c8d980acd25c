import Keyrings.Machine
import Keyrings.Proofs.KeyFile
import Mathlib.Data.List.Forall2

/-! Files that are alike but for the secrets in them. Two contents are alike if at any time they
hold the same keys, secrets left out. Whether a line can be read depends on its secret only in so
far as it has one, so files are alike that were written from keys with the same identifiers and
times and with any secrets. Two trees are alike if they have the same entries with alike contents,
and then every operation does the same on both and leaves them alike. -/

namespace Keyrings

/-! ### Keys without their secrets -/

def Key.masked (k : Key) : Key := { k with secret := [] }

/-- Keys that differ in nothing but their secrets, all of which have some length. -/
structure Twins (keys keys' : List Key) : Prop where
  masked_eq : keys.map Key.masked = keys'.map Key.masked
  left_ne_nil : ∀ k ∈ keys, k.secret ≠ []
  right_ne_nil : ∀ k ∈ keys', k.secret ≠ []

theorem hasId_masked (keys : List Key) (id : Int32) :
    hasId (keys.map Key.masked) id = hasId keys id :=
  List.any_map

theorem findRecent_masked (keys : List Key) (now : Instant) :
    findRecent (keys.map Key.masked) now = (findRecent keys now).map Key.masked :=
  List.find?_map ..

/-- Of two lists that differ in secrets only, either none has a recent key, or the first recent keys
have the same identifier. -/
theorem findRecent_cases {keys keys' : List Key}
    (h : keys.map Key.masked = keys'.map Key.masked) (now : Instant) :
    (findRecent keys now = none ∧ findRecent keys' now = none) ∨
    ∃ k k', findRecent keys now = some k ∧ findRecent keys' now = some k' ∧
      k.id = k'.id := by
  have hfound : (findRecent keys now).map Key.masked = (findRecent keys' now).map Key.masked := by
    rw [← findRecent_masked, h, findRecent_masked]
  cases hl : findRecent keys now with
  | none =>
    rw [hl] at hfound
    exact .inl ⟨rfl, Option.map_eq_none_iff.mp hfound.symm⟩
  | some k =>
    rw [hl] at hfound
    obtain ⟨k', hr, hk⟩ := Option.map_eq_some_iff.mp hfound.symm
    have hid : k'.masked.id = k.masked.id := congrArg Key.id hk
    exact .inr ⟨k, k', rfl, hr, hid.symm⟩

-- Each key drops others from the rest, so that the recursion is on the length.
theorem firstOfEachId_masked (keys : List Key) :
    firstOfEachId (keys.map Key.masked) = (firstOfEachId keys).map Key.masked := by
  match keys with
  | [] => rfl
  | k :: keys =>
    have ih := firstOfEachId_masked (keys.filter (!k.id == ·.id))
    rw [List.map_cons, firstOfEachId_cons, firstOfEachId_cons, List.map_cons, ← ih,
      List.filter_map]
    rfl
termination_by keys.length
decreasing_by
  have := List.length_filter_le (!k.id == ·.id) keys
  simp only [List.length_cons]
  omega

namespace Twins

variable {keys keys' : List Key} (h : Twins keys keys')
include h

theorem hasId_eq (id : Int32) : hasId keys id = hasId keys' id := by
  rw [← hasId_masked, h.masked_eq, hasId_masked]

theorem append {k : Key} (hk : k.secret ≠ []) : Twins (keys ++ [k]) (keys' ++ [k]) where
  masked_eq := by rw [List.map_append, List.map_append, h.masked_eq]
  left_ne_nil := by simpa [or_imp, forall_and, hk] using h.left_ne_nil
  right_ne_nil := by simpa [or_imp, forall_and, hk] using h.right_ne_nil

end Twins

/-! ### Contents of files -/

namespace KeyFile

/-- What a written file holds, secrets left out, is a matter of the keys without their secrets. -/
theorem parse_serialize_masked {keys : List Key} (h : ∀ k ∈ keys, k.secret ≠ [])
    (now : Instant) : (parse (serialize keys) now).map Key.masked = firstOfEachId
      ((keys.map Key.masked).filter fun k => 0 ≤ k.id.toInt && k.isWithinLifetime now) := by
  have hreadable : ∀ k ∈ keys, k.isReadable now =
      (0 ≤ k.masked.id.toInt && k.masked.isWithinLifetime now) := by
    intro k hk
    simp only [Key.isReadable, List.isEmpty_eq_false_iff.mpr (h k hk), Bool.not_false,
      Bool.and_true]
    rfl
  rw [parse_serialize_eq, ← firstOfEachId_masked, List.filter_map, List.filter_congr hreadable]
  rfl

/-- Contents that hold the same keys at any time, but for their secrets. -/
def Alike (contents contents' : List UInt8) : Prop :=
  ∀ now, (parse contents now).map Key.masked = (parse contents' now).map Key.masked

theorem Alike.twins {contents contents' : List UInt8} (h : Alike contents contents')
    (now : Instant) : Twins (parse contents now) (parse contents' now) :=
  ⟨h now, (parse_storable contents now).1.secret_ne_nil,
    (parse_storable contents' now).1.secret_ne_nil⟩

end KeyFile

theorem Twins.serialize {keys keys' : List Key} (h : Twins keys keys') :
    KeyFile.Alike (KeyFile.serialize keys) (KeyFile.serialize keys') := by
  intro now
  rw [KeyFile.parse_serialize_masked h.left_ne_nil, KeyFile.parse_serialize_masked h.right_ne_nil,
    h.masked_eq]

/-! ### Results and tables -/

/-- Two results that are the same error, or values that are related. -/
inductive Agree {ε α β : Type} (R : α → β → Prop) : Except ε α → Except ε β → Prop
  | ok {a : α} {b : β} (h : R a b) : Agree R (.ok a) (.ok b)
  | error (e : ε) : Agree R (.error e) (.error e)

/-- Two pairs with the same first part and with second parts that are related. -/
inductive Paired {α β γ : Type} (R : β → γ → Prop) : α × β → α × γ → Prop
  | mk (a : α) {b : β} {c : γ} (h : R b c) : Paired R (a, b) (a, c)

/-- A choice by the first parts alone is the same in both tables. -/
theorem Paired.filter {α β γ : Type} {R : β → γ → Prop} {xs : List (α × β)} {ys : List (α × γ)}
    (h : List.Forall₂ (Paired R) xs ys) (keep : α → Bool) :
    List.Forall₂ (Paired R) (xs.filter (keep ·.1)) (ys.filter (keep ·.1)) :=
  List.rel_filter (fun _ _ ⟨_, _⟩ => Iff.rfl) h

/-! ### Trees -/

/-- Two directories, or two files with alike contents, of one mode. -/
inductive Entry.Alike : Entry → Entry → Prop
  | directory (mode : Mode) : Alike (.directory mode) (.directory mode)
  | file (mode : Mode) {bytes bytes' : List UInt8} (h : KeyFile.Alike bytes bytes') :
    Alike (.file mode bytes) (.file mode bytes')

theorem Entry.Alike.refl : ∀ e : Entry, e.Alike e
  | .directory mode => .directory mode
  | .file mode _ => .file mode fun _ => rfl

namespace FileTree

/-- Trees with the same entries in the same order, but for the secrets in files. -/
def Alike (t u : FileTree) : Prop := List.Forall₂ (Paired Entry.Alike) t.entries u.entries

namespace Alike

variable {t u : FileTree}

theorem refl (t : FileTree) : t.Alike t :=
  List.forall₂_same.mpr fun x _ => ⟨x.1, .refl x.2⟩

theorem erase (h : t.Alike u) (l : Location) : (t.erase l).Alike (u.erase l) :=
  Paired.filter h (decide <| · ≠ l)

theorem insert (h : t.Alike u) (l : Location) {e e' : Entry} (he : e.Alike e') :
    (t.insert l e).Alike (u.insert l e') :=
  .cons ⟨l, he⟩ (h.erase l)

theorem transplant (h : t.Alike u) (source target : Location) :
    (t.transplant source target).Alike (u.transplant source target) := by
  refine List.rel_map (fun _ _ ⟨k, he⟩ => ?_) (Paired.filter h (!target.isPrefixOf ·))
  by_cases hk : source.isPrefixOf k = true
  · simpa only [hk, if_true] using .mk _ he
  · simpa only [hk, if_false] using .mk k he

/-! What can be seen of a tree. -/

theorem find {xs ys : List (Location × Entry)}
    (h : List.Forall₂ (Paired Entry.Alike) xs ys) (l : Location) :
    Option.Rel Entry.Alike (FileTree.find l xs) (FileTree.find l ys) := by
  induction h with
  | nil => exact .none
  | cons hxy _ ih =>
    obtain ⟨k, he⟩ := hxy
    simp only [FileTree.find]
    split_ifs
    · exact .some he
    · exact ih

/-- At each place there is nothing in both trees, or a directory in both, or a file in both. -/
theorem lookup_cases (h : t.Alike u) (l : Location) :
    (t.lookup l = none ∧ u.lookup l = none) ∨
    (∃ mode, t.lookup l = some (.directory mode) ∧ u.lookup l = some (.directory mode)) ∨
    ∃ mode bytes bytes', t.lookup l = some (.file mode bytes) ∧
      u.lookup l = some (.file mode bytes') ∧ KeyFile.Alike bytes bytes' := by
  have hl : Option.Rel Entry.Alike (t.lookup l) (u.lookup l) := by
    unfold FileTree.lookup
    split_ifs
    · exact .some (.refl _)
    · exact find h l
  generalize t.lookup l = e, u.lookup l = e' at hl
  rcases hl with ⟨⟨mode⟩ | ⟨mode, hbytes⟩⟩ | _
  · exact .inr (.inl ⟨mode, rfl, rfl⟩)
  · exact .inr (.inr ⟨mode, _, _, rfl, rfl, hbytes⟩)
  · exact .inl ⟨rfl, rfl⟩

theorem walk_eq (h : t.Alike u) (here : Location) (names : List (List Char)) :
    t.walk here names = u.walk here names := by
  induction names generalizing here with
  | nil => rfl
  | cons name names ih =>
    simp only [walk, ih]
    rcases h.lookup_cases (here ++ [name]) with
      ⟨ht, hu⟩ | ⟨_, ht, hu⟩ | ⟨_, _, _, ht, hu, _⟩ <;> simp only [ht, hu]

theorem hasBelow_eq (h : t.Alike u) (l : Location) : t.hasBelow l = u.hasBelow l := by
  have hplaces : t.entries.map Prod.fst = u.entries.map Prod.fst :=
    List.forall₂_eq_eq_eq ▸ List.rel_map (fun _ _ ⟨_, _⟩ => rfl) h
  have hany : ∀ v : FileTree, v.hasBelow l =
      (v.entries.map Prod.fst).any fun k => l.isPrefixOf k && k ≠ l := by
    intro v
    rw [List.any_map]
    rfl
  rw [hany, hplaces, hany]

variable (h : t.Alike u) (cwd : Location) (p : Path)
include h

theorem approach_eq : t.approach cwd p = u.approach cwd p := by
  simp only [approach, h.walk_eq]

theorem locate_eq : t.locate cwd p = u.locate cwd p := by
  simp only [locate, h.approach_eq]

/-! What operations do. -/

theorem read : Agree KeyFile.Alike (t.read cwd p) (u.read cwd p) := by
  simp only [FileTree.read, entryAt, h.locate_eq]
  rcases u.locate cwd p with e | (l | l)
  · exact .error e
  · rcases h.lookup_cases l with ⟨ht, hu⟩ | ⟨_, ht, hu⟩ | ⟨_, _, _, ht, hu, hbytes⟩ <;>
      simp only [ht, hu, Option.elim_none, Option.elim_some]
    · exact .error _
    · exact .error _
    · exact .ok hbytes
  · rcases h.lookup_cases l with ⟨ht, hu⟩ | ⟨_, ht, hu⟩ | ⟨_, _, _, ht, hu, hbytes⟩ <;>
      simp only [ht, hu]
    · exact .error _
    · exact .error _
    · cases p.endsInSeparator
      · exact .ok hbytes
      · exact .error _

theorem create (mode : Mode) : Agree Alike (t.create cwd p mode) (u.create cwd p mode) := by
  simp only [FileTree.create, h.approach_eq]
  rcases u.approach cwd p with e | (l | l)
  · exact .error e
  · exact .error _
  · dsimp only
    split_ifs
    · exact .error _
    · exact .error _
    · rcases h.lookup_cases l with ⟨ht, hu⟩ | ⟨_, ht, hu⟩ | ⟨_, _, _, ht, hu, _⟩ <;>
        simp only [ht, hu]
      · exact .ok (h.insert l (.refl _))
      · exact .error _
      · exact .error _

theorem store {bytes bytes' : List UInt8} (hbytes : KeyFile.Alike bytes bytes') :
    (t.store cwd p bytes).Alike (u.store cwd p bytes') := by
  simp only [FileTree.store, h.locate_eq]
  rcases u.locate cwd p with e | (l | l)
  · exact h
  · exact h
  · rcases h.lookup_cases l with ⟨ht, hu⟩ | ⟨_, ht, hu⟩ | ⟨mode, _, _, ht, hu, _⟩ <;>
      simp only [ht, hu]
    · exact h
    · exact h
    · exact h.insert l (.file mode hbytes)

theorem remove : Agree Alike (t.remove cwd p) (u.remove cwd p) := by
  simp only [FileTree.remove, h.locate_eq]
  rcases u.locate cwd p with e | (l | l)
  · exact .error e
  · exact .error _
  · rcases h.lookup_cases l with ⟨ht, hu⟩ | ⟨_, ht, hu⟩ | ⟨_, _, _, ht, hu, _⟩ <;>
      simp only [ht, hu]
    · exact .error _
    · exact .error _
    · cases p.endsInSeparator
      · exact .ok (h.erase l)
      · exact .error _

theorem makeDirectory (mode : Mode) :
    Agree Alike (t.makeDirectory cwd p mode) (u.makeDirectory cwd p mode) := by
  simp only [FileTree.makeDirectory, h.locate_eq]
  rcases u.locate cwd p with e | (l | l)
  · exact .error e
  · exact .error _
  · rcases h.lookup_cases l with ⟨ht, hu⟩ | ⟨_, ht, hu⟩ | ⟨_, _, _, ht, hu, _⟩ <;>
      simp only [ht, hu]
    · exact .ok (h.insert l (.refl _))
    · exact .error _
    · exact .error _

theorem rename (q : Path) : Agree Alike (t.rename cwd p q) (u.rename cwd p q) := by
  simp only [FileTree.rename, h.locate_eq]
  rcases u.locate cwd p with e | (l | source)
  · exact .error e
  · rcases u.locate cwd q with e | (_ | _) <;> exact .error _
  · rcases u.locate cwd q with e | (_ | target)
    · exact .error e
    · exact .error _
    · rcases h.lookup_cases source with
        ⟨ht, hu⟩ | ⟨_, ht, hu⟩ | ⟨mode, _, _, ht, hu, hbytes⟩ <;> simp only [ht, hu]
      · exact .error _
      · simp only [h.hasBelow_eq]
        split_ifs
        · exact .ok h
        · exact .error _
        · rcases h.lookup_cases target with
            ⟨ht, hu⟩ | ⟨_, ht, hu⟩ | ⟨_, _, _, ht, hu, _⟩ <;> simp only [ht, hu]
          · exact .error _
          · exact .error _
          · exact .error _
        · rcases h.lookup_cases target with
            ⟨ht, hu⟩ | ⟨_, ht, hu⟩ | ⟨_, _, _, ht, hu, _⟩ <;> simp only [ht, hu]
          · exact .ok (h.transplant source target)
          · exact .ok (h.transplant source target)
          · exact .error _
      · split_ifs
        · exact .error _
        · rcases h.lookup_cases target with
            ⟨ht, hu⟩ | ⟨_, ht, hu⟩ | ⟨_, _, _, ht, hu, _⟩ <;> simp only [ht, hu]
          · exact .ok ((h.erase source).insert target (.file mode hbytes))
          · exact .error _
          · exact .ok ((h.erase source).insert target (.file mode hbytes))

end Alike

end FileTree

end Keyrings

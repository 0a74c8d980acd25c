import Keyrings.KeyFile
import Keyrings.Proofs.Decimal
import Mathlib.Data.List.Nodup

/-! Reading back what was written. The lines of a written file are those of its keys, and each line
reads back as its key or fails a requirement that the key does not meet. Of the keys that can be
read the first of each identifier hides the others. So a file that was written from keys with
distinct identifiers, as reading gives them, holds those that may still be kept, in their order. -/

namespace Keyrings

def kept (keys : List Key) (now : Instant) : List Key := keys.filter (·.isWithinLifetime now)

def Key.isReadable (k : Key) (now : Instant) : Bool :=
  0 ≤ k.id.toInt && !k.secret.isEmpty && k.isWithinLifetime now

def firstOfEachId (keys : List Key) : List Key := keys.eraseDupsBy fun a b => a.id == b.id

/-- Keys that a file can hold: with identifiers from zero up, no secret empty and no identifier
twice. -/
structure Storable (keys : List Key) : Prop where
  id_nonneg : ∀ k ∈ keys, 0 ≤ k.id.toInt
  secret_ne_nil : ∀ k ∈ keys, k.secret ≠ []
  distinct : (keys.map (·.id)).Nodup

theorem hasId_eq_false_iff {keys : List Key} {id : Int32} :
    hasId keys id = false ↔ id ∉ keys.map (·.id) := by
  simp [hasId]

theorem hasId_concat (keys : List Key) (k : Key) (id : Int32) :
    hasId (keys ++ [k]) id = (hasId keys id || k.id == id) := by
  simp [hasId]

theorem firstOfEachId_cons (k : Key) (keys : List Key) :
    firstOfEachId (k :: keys) = k :: firstOfEachId (keys.filter (!k.id == ·.id)) := by
  have hnew : (fun j : Key => decide ((j.id == k.id) = false)) = fun j => !k.id == j.id := by
    funext j
    rw [BEq.comm]
    cases k.id == j.id <;> rfl
  rw [firstOfEachId, List.eraseDupsBy_cons, hnew, firstOfEachId]

/-- Where no identifier comes twice every key is the first of its own. -/
theorem firstOfEachId_of_nodup {keys : List Key} (h : (keys.map (·.id)).Nodup) :
    firstOfEachId keys = keys := by
  induction keys with
  | nil => rfl
  | cons k keys ih =>
    rw [List.map_cons, List.nodup_cons] at h
    have hall : keys.filter (!k.id == ·.id) = keys := by
      refine List.filter_eq_self.mpr fun j hj => ?_
      have hne : k.id ≠ j.id := fun he => h.1 (he ▸ List.mem_map_of_mem hj)
      simpa using hne
    rw [firstOfEachId_cons, hall, ih h.2]

namespace Storable

variable {keys : List Key}

theorem nil : Storable [] := ⟨by simp, by simp, by simp⟩

theorem append (h : Storable keys) {k : Key} (hid : 0 ≤ k.id.toInt) (hs : k.secret ≠ [])
    (hnew : hasId keys k.id = false) : Storable (keys ++ [k]) where
  id_nonneg j hj := by
    rcases List.mem_append.mp hj with hj | hj
    · exact h.id_nonneg j hj
    · rwa [List.mem_singleton.mp hj]
  secret_ne_nil j hj := by
    rcases List.mem_append.mp hj with hj | hj
    · exact h.secret_ne_nil j hj
    · rwa [List.mem_singleton.mp hj]
  distinct := by
    rw [List.map_append, List.map_singleton, ← List.concat_eq_append]
    exact h.distinct.concat (hasId_eq_false_iff.mp hnew)

/-- Of the keys with one identifier there is one. -/
theorem eq_of_id_eq (h : Storable keys) {j k : Key} (hj : j ∈ keys) (hk : k ∈ keys)
    (he : j.id = k.id) : j = k :=
  List.inj_on_of_nodup_map h.distinct hj hk he

/-- A loaded key is the one that its identifier finds. -/
theorem findId_eq_some (h : Storable keys) {k : Key} (hk : k ∈ keys) :
    findId keys k.id = some k := by
  cases hf : findId keys k.id with
  | none => simpa using List.find?_eq_none.mp hf k hk
  | some j =>
    have hid : j.id = k.id := by simpa using List.find?_some hf
    rw [h.eq_of_id_eq (List.mem_of_find?_eq_some hf) hk hid]

/-- A loaded key is the only one with its identifier. -/
theorem filter_id_eq (h : Storable keys) {k : Key} (hk : k ∈ keys) :
    keys.filter (·.id == k.id) = [k] := by
  have hall : ∀ j ∈ keys.filter (·.id == k.id), j = k := by
    intro j hj
    obtain ⟨hj, hid⟩ := List.mem_filter.mp hj
    exact h.eq_of_id_eq hj hk (by simpa using hid)
  have hone : (keys.filter (·.id == k.id)).Nodup := h.distinct.of_map.filter _
  have hmem : k ∈ keys.filter (·.id == k.id) := List.mem_filter.mpr ⟨hk, by simp⟩
  exact List.perm_singleton.mp ((List.perm_ext_iff_of_nodup hone (List.nodup_singleton k)).mpr
    fun j => ⟨fun hj => by rw [hall j hj]; exact List.mem_singleton_self k,
      fun hj => by rwa [List.mem_singleton.mp hj]⟩)

end Storable

/-! ### Characters of a written line -/

/-- The characters that the fields of a line are written with: neither blanks nor controls, and
plain text. -/
def IsVisible (c : Char) : Prop := 32 < c.toNat ∧ c.toNat < 127

theorem isVisible_of_isDigit {c : Char} (h : c.isDigit = true) : IsVisible c := by
  simp only [Char.isDigit, ge_iff_le, Bool.and_eq_true, decide_eq_true_eq] at h
  have h₁ : 48 ≤ c.toNat := h.1
  have h₂ : c.toNat ≤ 57 := h.2
  unfold IsVisible
  omega

theorem IsVisible.isGap {c : Char} (h : IsVisible c) : Line.isGap c = false := by
  have hs : c ≠ ' ' := by rintro rfl; exact absurd h.1 (by decide)
  have ht : c ≠ '\t' := by rintro rfl; exact absurd h.1 (by decide)
  simp [Line.isGap, hs, ht]

theorem Decimal.isVisible_render (x : Int) : ∀ c ∈ render x, IsVisible c := by
  intro c hc
  unfold render at hc
  split at hc
  · rcases List.mem_cons.mp hc with rfl | hc
    · exact ⟨by decide, by decide⟩
    · exact isVisible_of_isDigit (isDigit_toDigits _ c hc)
  · exact isVisible_of_isDigit (isDigit_toDigits _ c hc)

theorem Decimal.render_ne_nil (x : Int) : render x ≠ [] := by
  unfold render
  split <;> simp

namespace Hex

theorem isVisible_digit {n : Nat} (h : n < 16) : IsVisible (digit n) := by
  have all : ∀ n ∈ List.range 16, 32 < (digit n).toNat ∧ (digit n).toNat < 127 := by decide
  exact all n (List.mem_range.mpr h)

theorem isVisible_encode (bs : List UInt8) : ∀ c ∈ encode bs, IsVisible c := by
  induction bs with
  | nil => simp [encode]
  | cons b bs ih =>
    have hb : b.toNat < 256 := b.toNat_lt
    intro c hc
    simp only [encode, List.mem_cons] at hc
    rcases hc with rfl | rfl | hc
    · exact isVisible_digit (by omega)
    · exact isVisible_digit (by omega)
    · exact ih c hc

theorem encode_ne_nil {bs : List UInt8} (h : bs ≠ []) : encode bs ≠ [] := by
  cases bs with
  | nil => exact absurd rfl h
  | cons b bs => simp [encode]

theorem ne_nil_of_decode {cs : List Char} {bs : List UInt8} (h : decode cs = some bs)
    (hcs : cs ≠ []) : bs ≠ [] := by
  rintro rfl
  match cs with
  | [] => exact hcs rfl
  | [_] => simp [decode] at h
  | c :: d :: rest =>
    simp only [decode, Option.bind_eq_bind, Option.bind_eq_some_iff] at h
    obtain ⟨_, _, _, _, _, _, h⟩ := h
    simp at h

end Hex

/-! ### Lines -/

namespace Line

/-- A key as a line, without its end. -/
def text (k : Key) : List Char :=
  Decimal.render k.id.toInt ++ ' ' :: (Decimal.render k.created.toInt ++ ' ' :: k.hexSecret)

theorem render_eq (k : Key) : render k = text k ++ ['\n'] := by
  simp [render, text]

theorem text_visible (k : Key) : ∀ c ∈ text k, c = ' ' ∨ IsVisible c := by
  intro c hc
  simp only [text, List.mem_append, List.mem_cons] at hc
  rcases hc with hc | rfl | hc | rfl | hc
  · exact Or.inr (Decimal.isVisible_render _ c hc)
  · exact Or.inl rfl
  · exact Or.inr (Decimal.isVisible_render _ c hc)
  · exact Or.inl rfl
  · exact Or.inr (Hex.isVisible_encode _ c hc)

theorem text_plain (k : Key) : ∀ c ∈ text k, 1 ≤ c.toNat ∧ c.toNat < 128 := by
  intro c hc
  rcases text_visible k c hc with rfl | h
  · exact ⟨by decide, by decide⟩
  · exact ⟨by have := h.1; omega, by have := h.2; omega⟩

/-- A line has no line break inside. -/
theorem not_mem_text (k : Key) {c : Char} (h : c.toNat < 32) : c ∉ text k := by
  intro hc
  rcases text_visible k c hc with rfl | hv
  · exact absurd h (by decide)
  · exact absurd hv.1 (by omega)

/-- One blank before a field is all that is skipped. -/
theorem dropWhile_isGap_cons {cs : List Char} (h : ∀ c ∈ cs.head?, IsVisible c) :
    (' ' :: cs).dropWhile isGap = cs := by
  have hs : isGap ' ' = true := by decide
  rw [List.dropWhile_cons_of_pos hs]
  cases cs with
  | nil => rfl
  | cons c cs => simp [(h c rfl).isGap]

theorem trimEnd_of_visible {cs : List Char} (h : ∀ c ∈ cs, IsVisible c) : trimEnd cs = cs := by
  have hdrop : cs.reverse.dropWhile isGap = cs.reverse := by
    cases hr : cs.reverse with
    | nil => rfl
    | cons c rest =>
      have hc : c ∈ cs := List.mem_reverse.mp (by rw [hr]; exact List.mem_cons_self ..)
      simp [(h c hc).isGap]
  rw [trimEnd, hdrop, List.reverse_reverse]

theorem not_isDigit_space : ∀ {cs : List Char}, ∀ c ∈ (' ' :: cs).head?, c.isDigit = false := by
  intro cs c hc
  cases hc
  decide

/-- The line of a key reads back as the key, or fails the first requirement that the key does not
meet. -/
theorem parse_text (k : Key) (now : Instant) : parse (text k) now =
    if k.id.toInt < 0 then .error .idOutOfRange
    else if k.isWithinLifetime now = false then .error .timestampOutOfRange
    else if k.secret = [] then .error .missingSecret
    else .ok k := by
  have hidLe : k.id.toInt ≤ maxId := by
    have := k.id.toInt_lt
    unfold maxId
    omega
  have hidRange := Decimal.inRange_int32 k.id
  have htRange := Decimal.inRange_int64 k.created
  have hvisible : ∀ c ∈ k.hexSecret, IsVisible c := Hex.isVisible_encode k.secret
  have hskipTime : (' ' :: (Decimal.render k.created.toInt ++ ' ' :: k.hexSecret)).dropWhile isGap =
      Decimal.render k.created.toInt ++ ' ' :: k.hexSecret := dropWhile_isGap_cons fun c hc => by
    rw [List.head?_append_of_ne_nil _ (Decimal.render_ne_nil _)] at hc
    exact Decimal.isVisible_render _ c (List.mem_of_head? hc)
  have hskipSecret := dropWhile_isGap_cons fun c hc => hvisible c (List.mem_of_head? hc)
  have hdecode : Hex.decode k.hexSecret = some k.secret := Hex.decode_encode k.secret
  have hrange : (k.id.toInt < 0 ∨ maxId < k.id.toInt) ↔ k.id.toInt < 0 := by omega
  have hempty : k.hexSecret.isEmpty = true ↔ k.secret = [] := by
    rw [List.isEmpty_iff]
    refine ⟨fun h => Classical.byContradiction fun hs => Hex.encode_ne_nil hs h, fun h => ?_⟩
    rw [Key.hexSecret, h]
    rfl
  simp only [parse, text, Decimal.scan_render hidRange not_isDigit_space, hrange, hskipTime,
    Decimal.scan_render htRange not_isDigit_space, Int64.ofInt_toInt, hskipSecret,
    trimEnd_of_visible hvisible, hempty, hdecode, Int32.ofInt_toInt, Key.isWithinLifetime,
    Bool.not_eq_true']
  rfl

/-- What a line is read as can be written to a file, and may be kept at that time. -/
theorem storable_of_parse {line : List Char} {now : Instant} {k : Key}
    (h : parse line now = .ok k) :
    0 ≤ k.id.toInt ∧ k.secret ≠ [] ∧ k.isWithinLifetime now = true := by
  unfold parse at h
  split at h
  · contradiction
  split_ifs at h with hrange
  split at h
  · contradiction
  rename_i seconds afterTime _
  cases hacc : isAcceptable (Int64.ofInt seconds) now with
  | false => simp [hacc] at h
  | true =>
    simp only [hacc, Bool.not_true, Bool.false_eq_true, if_false] at h
    split_ifs at h with hempty
    split at h
    · contradiction
    rename_i secret hsecret
    injection h with h
    subst h
    refine ⟨?_, Hex.ne_nil_of_decode hsecret (by simpa using hempty), hacc⟩
    unfold maxId at hrange
    rw [Int32.toInt_ofInt_of_le (by omega) (by omega)]
    omega

end Line

namespace Text

theorem cut_line {line : List Char} (rest : List Char) (h : '\n' ∉ line) :
    cut (line ++ '\n' :: rest) = (line ++ ['\n']) :: cut rest := by
  induction line with
  | nil => rfl
  | cons c line ih =>
    have hc : c ≠ '\n' := fun he => h (by simp [he])
    have htail : '\n' ∉ line := fun hm => h (List.mem_cons_of_mem c hm)
    have hstep : cut (c :: (line ++ '\n' :: rest)) = putFirst c (cut (line ++ '\n' :: rest)) := rfl
    rw [List.cons_append, hstep, ih htail, putFirst, if_neg hc]
    rfl

theorem dropLineFeed_line {line : List Char} (h : '\r' ∉ line) :
    dropLineFeed (line ++ ['\n']) = line := by
  induction line with
  | nil => rfl
  | cons c line ih =>
    have hc : c ≠ '\r' := fun he => h (by simp [he])
    have htail : '\r' ∉ line := fun hm => h (List.mem_cons_of_mem c hm)
    rw [List.cons_append, dropLineFeed, ih htail]
    · intro _ he
      simp at he
    · rintro rfl
      exact absurd rfl hc

/-- A line that ends in a line feed stands apart from what follows. -/
theorem lines_line {line : List Char} (rest : List Char) (hn : '\n' ∉ line) (hr : '\r' ∉ line) :
    lines (line ++ '\n' :: rest) = line :: lines rest := by
  rw [lines, cut_line rest hn, List.map_cons, dropLineFeed_line hr]
  rfl

namespace Plain

theorem isPlain_bytes {cs : List Char} (h : ∀ c ∈ cs, 1 ≤ c.toNat ∧ c.toNat < 128) :
    isPlain (bytes cs) = true := by
  unfold isPlain bytes
  rw [List.all_eq_true]
  intro b hb
  obtain ⟨c, hc, rfl⟩ := List.mem_map.mp hb
  obtain ⟨h₁, h₂⟩ := h c hc
  have hnat : (UInt8.ofNat c.toNat).toNat = c.toNat := by
    rw [UInt8.toNat_ofNat']
    omega
  simp only [Bool.and_eq_true, decide_eq_true_eq, UInt8.le_iff_toNat_le, hnat]
  exact ⟨h₁, by change c.toNat ≤ 127; omega⟩

end Plain

end Text

/-! ### Files -/

namespace KeyFile

theorem lines_render (keys : List Key) : Text.lines (render keys) = keys.map Line.text := by
  induction keys with
  | nil => rfl
  | cons k keys ih =>
    have hn : '\n' ∉ Line.text k := Line.not_mem_text k (by decide)
    have hr : '\r' ∉ Line.text k := Line.not_mem_text k (by decide)
    have hcons : render (k :: keys) = Line.text k ++ '\n' :: render keys := by
      simp [render, Line.render_eq]
    rw [hcons, Text.lines_line _ hn hr, ih, List.map_cons]

theorem render_plain (keys : List Key) :
    ∀ c ∈ render keys, 1 ≤ c.toNat ∧ c.toNat < 128 := by
  intro c hc
  obtain ⟨k, _, hc⟩ := List.mem_flatMap.mp hc
  rw [Line.render_eq, List.mem_append, List.mem_singleton] at hc
  rcases hc with hc | rfl
  · exact Line.text_plain k c hc
  · exact ⟨by decide, by decide⟩

theorem parse_serialize_eq_foldl (keys : List Key) (now : Instant) :
    parse (serialize keys) now = (keys.map Line.text).foldl (addLine now) [] := by
  have hplain := Text.Plain.isPlain_bytes (render_plain keys)
  have hchars := Text.Plain.characters_bytes fun c hc => (render_plain keys c hc).2
  simp only [parse, serialize, hplain, if_true, hchars, lines_render]

/-- A key is taken from its line if it can be read and its identifier is new. -/
theorem addLine_text (now : Instant) (before : List Key) (k : Key) :
    addLine now before (Line.text k) =
      if k.isReadable now && !hasId before k.id then before ++ [k] else before := by
  rw [addLine, Line.parse_text]
  by_cases hid : k.id.toInt < 0
  · have hid' : ¬ 0 ≤ k.id.toInt := by omega
    simp [hid, Key.isReadable, hid']
  · have hid' : 0 ≤ k.id.toInt := by omega
    cases hlife : k.isWithinLifetime now with
    | false => simp [hid, hlife, Key.isReadable]
    | true =>
      by_cases hs : k.secret = []
      · simp [hid, hs, Key.isReadable]
      · cases hnew : hasId before k.id <;> simp [hid, hs, hid', hlife, hnew, Key.isReadable]

/-- The keys that are read after others are those with new identifiers, the first of each. The
induction is on the lines still to be read. -/
theorem foldl_text (before keys : List Key) (now : Instant) :
    (keys.map Line.text).foldl (addLine now) before = before ++ firstOfEachId
      (keys.filter fun k => k.isReadable now && !hasId before k.id) := by
  induction keys generalizing before with
  | nil => rw [List.map_nil, List.foldl_nil, List.filter_nil, firstOfEachId, List.eraseDupsBy_nil,
      List.append_nil]
  | cons k keys ih =>
    rw [List.map_cons, List.foldl_cons, addLine_text, List.filter_cons]
    cases htake : k.isReadable now && !hasId before k.id with
    | false => exact ih before
    | true =>
      have hlater : (keys.filter fun j => j.isReadable now && !hasId (before ++ [k]) j.id) =
          (keys.filter fun j => j.isReadable now && !hasId before j.id).filter
            (!k.id == ·.id) := by
        rw [List.filter_filter]
        refine List.filter_congr fun j _ => ?_
        rw [hasId_concat, Bool.not_or, Bool.and_comm (!k.id == j.id), Bool.and_assoc]
      simp only [if_true]
      rw [ih, hlater, firstOfEachId_cons, List.append_assoc, List.singleton_append]

/-- A written file holds the keys that can be read, the first of each identifier. -/
theorem parse_serialize_eq (keys : List Key) (now : Instant) :
    parse (serialize keys) now = firstOfEachId (keys.filter (·.isReadable now)) := by
  have hnone : ∀ k ∈ keys, (k.isReadable now && !hasId [] k.id) = k.isReadable now :=
    fun k _ => Bool.and_true _
  rw [parse_serialize_eq_foldl, foldl_text, List.filter_congr hnone, List.nil_append]

/-- Keys that a file can hold are all there as long as they may be kept, in their order. -/
theorem parse_serialize {keys : List Key} (h : Storable keys) (now : Instant) :
    parse (serialize keys) now = kept keys now := by
  have hkept : keys.filter (·.isReadable now) = kept keys now := by
    refine List.filter_congr fun k hk => ?_
    have hid := h.id_nonneg k hk
    have hs := h.secret_ne_nil k hk
    simp [Key.isReadable, hid, hs]
  have hdistinct : ((kept keys now).map (·.id)).Nodup :=
    h.distinct.sublist (List.filter_sublist.map _)
  rw [parse_serialize_eq, hkept, firstOfEachId_of_nodup hdistinct]

theorem addLine_storable {now : Instant} {keys : List Key} (line : List Char) (h : Storable keys) :
    Storable (addLine now keys line) := by
  unfold addLine
  split
  · rename_i k hk
    obtain ⟨hid, hs, _⟩ := Line.storable_of_parse hk
    cases hnew : hasId keys k.id with
    | true => simpa [hnew] using h
    | false => simpa [hnew] using h.append hid hs hnew
  · exact h

theorem addLine_kept {now : Instant} {keys : List Key} (line : List Char)
    (h : ∀ k ∈ keys, k.isWithinLifetime now = true) :
    ∀ k ∈ addLine now keys line, k.isWithinLifetime now = true := by
  unfold addLine
  split
  · rename_i k hk
    split_ifs
    · exact h
    · intro j hj
      rcases List.mem_append.mp hj with hj | hj
      · exact h j hj
      · rw [List.mem_singleton.mp hj]
        exact (Line.storable_of_parse hk).2.2
  · exact h

/-- Whatever a file contains, its keys can be written and may be kept at the time of reading. -/
theorem parse_storable (contents : List UInt8) (now : Instant) :
    Storable (parse contents now) ∧ ∀ k ∈ parse contents now, k.isWithinLifetime now = true := by
  unfold parse
  split_ifs
  · refine List.foldlRecOn _ (addLine now) (motive := fun keys => Storable keys ∧
      ∀ k ∈ keys, k.isWithinLifetime now = true) ⟨Storable.nil, by simp⟩ ?_
    intro keys h line _
    exact ⟨addLine_storable line h.1, addLine_kept line h.2⟩
  · exact ⟨Storable.nil, by simp⟩

/-- An empty file holds no key. -/
theorem parse_nil (now : Instant) : parse [] now = [] := rfl

/-- Writing keys and reading them back keeps those whose line can be read, and of these the first of
each identifier. So nothing is lost of keys that all can be read and have different identifiers, and
what was once read from a file, whatever its bytes, is read again from the file that it is written
to. -/
theorem parse_serialize_exact (keys : List Key) (now : Instant) :
    parse (serialize keys) now = firstOfEachId (keys.filter (·.isReadable now)) ∧
    ((keys.map (·.id)).Nodup → (∀ k ∈ keys, k.isReadable now = true) →
      parse (serialize keys) now = keys) ∧
    ∀ contents, parse (serialize (parse contents now)) now = parse contents now := by
  refine ⟨parse_serialize_eq keys now, fun hdistinct hall => ?_, fun contents => ?_⟩
  · rw [parse_serialize_eq, List.filter_eq_self.mpr hall, firstOfEachId_of_nodup hdistinct]
  · obtain ⟨hstorable, hlife⟩ := parse_storable contents now
    rw [parse_serialize hstorable, kept, List.filter_eq_self.mpr hlife]

/-- Keys of which some cannot be read: one has a negative identifier, one the earliest time of all,
one no secret, and one has expired. The last of these has the identifier of a key after it, and of
the keys after it two have the same one. -/
def sampleKeys : List Key :=
  [⟨-7, 1000, [1]⟩, ⟨2, Int64.minValue, [2]⟩, ⟨3, 1000, []⟩, ⟨4, 500, [3]⟩, ⟨4, 1000, [4]⟩,
    ⟨Int32.maxValue, 900, [5, 255]⟩, ⟨4, 1100, [6]⟩]

/-- The two keys that are left of them are read again after that. -/
theorem parse_serialize_exact_sample :
    parse (serialize sampleKeys) 1000 = [⟨4, 1000, [4]⟩, ⟨Int32.maxValue, 900, [5, 255]⟩] ∧
    parse (serialize [⟨4, 1000, [4]⟩, ⟨Int32.maxValue, 900, [5, 255]⟩]) 1000 =
      [⟨4, 1000, [4]⟩, ⟨Int32.maxValue, 900, [5, 255]⟩] := by
  constructor
  · rw [(parse_serialize_exact sampleKeys 1000).1]
    decide +kernel
  · refine (parse_serialize_exact [⟨4, 1000, [4]⟩, ⟨Int32.maxValue, 900, [5, 255]⟩] 1000).2.1 ?_ ?_
    · decide
    · decide

end KeyFile

end Keyrings

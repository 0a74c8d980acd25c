import Keyrings.Proofs.Appending
import Keyrings.Proofs.Grammar

/-! Files that were cut off. A cut leaves whole lines and the part of one more. Such a part is read
only if the cut is behind a whole byte of the secret: a numeral at the end of a text is followed by
no secret, and one before the end is the same in the whole line. So a file that was cut off holds
the keys of its whole lines and at most one key more, which may lack the end of its secret. -/

namespace Keyrings

namespace Hex

theorem take_encode (n : Nat) (bs : List UInt8) :
    (encode bs).take (2 * n) = encode (bs.take n) := by
  induction n generalizing bs with
  | zero => rfl
  | succ n ih =>
    cases bs with
    | nil => rfl
    | cons b bs =>
      rw [Nat.mul_succ, encode, List.take_succ_cons, List.take_succ_cons, ih, List.take_succ_cons,
        encode]

/-- Digits that go on are those of bytes that go on. -/
theorem prefix_of_encode {bs more : List UInt8} (h : encode bs <+: encode more) : bs <+: more := by
  have htake := List.prefix_iff_eq_take.mp h
  rw [length_encode, take_encode] at htake
  have hbytes := congrArg decode htake
  rw [decode_encode, decode_encode] at hbytes
  rw [Option.some.inj hbytes]
  exact List.take_prefix _ _

end Hex

theorem Storable.sublist {keys less : List Key} (h : Storable keys) (hless : less.Sublist keys) :
    Storable less where
  id_nonneg k hk := h.id_nonneg k (hless.subset hk)
  secret_ne_nil k hk := h.secret_ne_nil k (hless.subset hk)
  distinct := h.distinct.sublist (hless.map _)

/-- A numeral that is followed by anything is the same in a text that goes on. -/
theorem Decimal.Numeral.Before.append {n : Numeral} {rest : List Char} (h : n.Before rest)
    (hne : rest ≠ []) (more : List Char) : n.Before (rest ++ more) :=
  { h with stop := by rw [List.head?_append_of_ne_nil _ hne]; exact h.stop }

namespace Line

variable {now : Instant}

/-- Two lines of which one is the start of the other have the same numbers, and the secret of the
one is the start of that of the other. -/
theorem Spelling.Fits.extends {s s' : Spelling} {rest : List Char} (h : s.Fits now)
    (h' : s'.Fits now) (he : s'.text = s.text ++ rest) :
    s.id = s'.id ∧ s.time = s'.time ∧ s.digits <+: s'.digits := by
  have hsecret : s.gap ++ (s.digits ++ s.tail) ≠ [] := by simp [h.digits_ne_nil]
  have htime : s.time.text ++ (s.gap ++ (s.digits ++ s.tail)) ≠ [] := by simp [h.digits_ne_nil]
  obtain ⟨hid, hrest⟩ := (h.id.append htime rest).unique h'.id (by
    rw [← List.append_assoc, ← Spelling.text, ← he, Spelling.text])
  rw [List.append_assoc] at hrest
  obtain ⟨htimes, hmore⟩ := (h.time.append hsecret rest).unique h'.time hrest
  have hgaps : ∀ {s : Spelling} (tail : List Char), s.Fits now →
      (s.gap ++ (s.digits ++ tail)).dropWhile isGap = s.digits ++ tail := by
    intro s tail hs
    refine (Decimal.takeWhile_append_of_stop hs.gap fun c hc => ?_).2
    rw [List.head?_append_of_ne_nil _ hs.digits_ne_nil] at hc
    exact (hs.digits c (List.mem_of_head? hc)).isGap
  have hdigits := congrArg (List.dropWhile isGap) hmore
  rw [List.append_assoc, List.append_assoc, hgaps _ h, hgaps _ h'] at hdigits
  refine ⟨hid, htimes, ?_⟩
  rcases List.append_eq_append_iff.mp hdigits with ⟨a, ha, -⟩ | ⟨a, ha, htail⟩
  · exact ⟨a, ha.symm⟩
  · -- what the shorter line had more of digits would stand in the gap of the longer one
    have hnil : a = [] := List.eq_nil_iff_forall_not_mem.mpr fun c hc => by
      have hdigit := (h.digits c (by rw [ha]; exact List.mem_append_right _ hc)).isGap
      have hgap := h'.tail c (by rw [htail]; exact List.mem_append_left _ hc)
      rw [hdigit] at hgap
      contradiction
    exact ⟨[], by rw [ha, hnil, List.append_nil, List.append_nil]⟩

/-- A line that is read before and after a cut has the same numbers, and after it the start of its
secret. -/
theorem parse_of_cut {part rest : List Char} {k k' : Key} (h : parse (part ++ rest) now = .ok k)
    (h' : parse part now = .ok k') :
    k'.id = k.id ∧ k'.created = k.created ∧ k'.secret <+: k.secret := by
  have hwhole := parse_reading (part ++ rest) now
  have hpart := parse_reading part now
  rw [h] at hwhole
  rw [h'] at hpart
  obtain ⟨s, htext, hfits, hspells⟩ := hwhole.spelling
  obtain ⟨s', rfl, hfits', hspells'⟩ := hpart.spelling
  obtain ⟨hid, htime, hdigits⟩ := hfits'.extends hfits htext
  refine ⟨Int32.toInt_inj.mp ?_, Int64.toInt_inj.mp ?_, Hex.prefix_of_encode ?_⟩
  · rw [hspells'.id, hid, hspells.id]
  · rw [hspells'.created, htime, hspells.created]
  · rw [hspells'.secret, hspells.secret]
    exact hdigits.map _

/-- A part of the line of a key holds no key, or that key with the start of its secret. -/
theorem parse_part {k : Key} {part rest : List Char} (hk : k.isReadable now = true)
    (h : part ++ rest = text k) : (∃ fault, parse part now = .error fault) ∨
      ∃ secret, secret ≠ [] ∧ secret <+: k.secret ∧
        parse part now = .ok { k with secret := secret } := by
  cases hpart : parse part now with
  | error fault => exact Or.inl ⟨fault, rfl⟩
  | ok k' =>
    have hwhole : parse (part ++ rest) now = .ok k := by
      simp only [Key.isReadable, Bool.and_eq_true, decide_eq_true_eq, Bool.not_eq_true',
        List.isEmpty_eq_false_iff] at hk
      obtain ⟨⟨hid, hs⟩, hlife⟩ := hk
      rw [h, parse_text, if_neg (by omega), if_neg (by simp [hlife]), if_neg hs]
    obtain ⟨hid, hcreated, hsecret⟩ := parse_of_cut hwhole hpart
    refine Or.inr ⟨k'.secret, (storable_of_parse hpart).2.1, hsecret, ?_⟩
    rw [← hid, ← hcreated]

end Line

namespace Text

theorem cut_of_not_mem {cs : List Char} (h : '\n' ∉ cs) (hne : cs ≠ []) : cut cs = [cs] := by
  induction cs with
  | nil => exact absurd rfl hne
  | cons c cs ih =>
    have hc : c ≠ '\n' := fun he => h (by simp [he])
    have hcs : '\n' ∉ cs := fun hm => h (List.mem_cons_of_mem c hm)
    have hstep : cut (c :: cs) = putFirst c (cut cs) := rfl
    rw [hstep]
    unfold putFirst
    rw [if_neg hc]
    by_cases hnil : cs = []
    · rw [hnil]
      rfl
    · rw [ih hcs hnil]

theorem dropLineFeed_of_not_mem {cs : List Char} (h : '\n' ∉ cs) : dropLineFeed cs = cs := by
  fun_induction dropLineFeed cs with
  | case1 => rfl
  | case2 => simp at h
  | case3 => simp at h
  | case4 c cs _ _ ih => rw [ih fun hm => h (List.mem_cons_of_mem c hm)]

/-- A text without line feeds is one line, if it is not empty. -/
theorem lines_of_not_mem {cs : List Char} (h : '\n' ∉ cs) (hne : cs ≠ []) : lines cs = [cs] := by
  rw [lines, cut_of_not_mem h hne, List.map_singleton, dropLineFeed_of_not_mem h]

end Text

namespace KeyFile

open Text.Plain (isPlain characters bytes isPlain_bytes characters_bytes)

variable {keys : List Key} {now : Instant} {k : Key} {cs part : List Char} {m : Nat}

theorem render_append (before after : List Key) :
    render (before ++ after) = render before ++ render after := List.flatMap_append

theorem endsLine_serialize (keys : List Key) : EndsLine (serialize keys) := by
  rcases List.eq_nil_or_concat keys with rfl | ⟨front, k, rfl⟩
  · exact Or.inl rfl
  · right
    have hlast : render (front.concat k) = render front ++ Line.text k ++ ['\n'] := by
      simp [render, Line.render_eq]
    rw [serialize, hlast, bytes, List.getLast?_map, List.getLast?_concat]
    rfl

/-- The part of a line holds no key, or the key of the line with the start of its secret. -/
theorem parse_bytes_part (hk : k.isReadable now = true) (hpart : part <+: Line.text k) :
    parse (bytes part) now = [] ∨ ∃ secret, secret ≠ [] ∧ secret <+: k.secret ∧
      parse (bytes part) now = [{ k with secret := secret }] := by
  have hplain : ∀ c ∈ part, 1 ≤ c.toNat ∧ c.toNat < 128 :=
    fun c hc => Line.text_plain k c (hpart.subset hc)
  rw [parse_of_isPlain (isPlain_bytes hplain), characters_bytes fun c hc => (hplain c hc).2]
  by_cases hnil : part = []
  · exact Or.inl (by rw [hnil]; rfl)
  · have hbreak : '\n' ∉ part := fun hm => Line.not_mem_text k (by decide) (hpart.subset hm)
    obtain ⟨rest, hrest⟩ := hpart
    rw [Text.lines_of_not_mem hbreak hnil, List.foldl_cons, List.foldl_nil, addLine]
    rcases Line.parse_part hk hrest with ⟨fault, hfault⟩ | ⟨secret, hne, hsecret, hkey⟩
    · exact Or.inl (by rw [hfault])
    · exact Or.inr ⟨secret, hne, hsecret, by rw [hkey]; rfl⟩

/-- The key of the next line is none of those before it. -/
theorem besides_next (hkeys : Storable keys) (hk : keys[m]? = some k) (secret : List UInt8) :
    besides (keys.take m) [{ k with secret := secret }] = [{ k with secret := secret }] := by
  have hnext : keys.take (m + 1) = keys.take m ++ [k] := by
    rw [List.take_add_one, hk]
    rfl
  have hdistinct := (hkeys.sublist (List.take_sublist (m + 1) keys)).distinct
  rw [hnext, List.map_append, List.nodup_append] at hdistinct
  have hnew : hasId (keys.take m) k.id = false :=
    hasId_eq_false_iff.mpr fun hm => hdistinct.2.2 _ hm k.id (by simp) rfl
  simp [besides, hnew]

/-- A text is what is left of a file after a cut: some whole lines, and a part of the next one. -/
structure CutAt (keys : List Key) (cs : List Char) (m : Nat) (part : List Char) : Prop where
  le_length : m ≤ keys.length
  text_eq : cs = render (keys.take m) ++ part
  part : part = [] ∨ ∃ k, keys[m]? = some k ∧ part <+: Line.text k

/-- Each cut leaves such a text. The induction is on the keys of the file. -/
theorem exists_cut (h : cs <+: render keys) : ∃ m part, CutAt keys cs m part := by
  induction keys generalizing cs with
  | nil => exact ⟨0, [], Nat.le_refl 0, List.prefix_nil.mp h, Or.inl rfl⟩
  | cons k keys ih =>
    obtain ⟨rest, hrest⟩ := h
    have hcons : render (k :: keys) = Line.render k ++ render keys := rfl
    rw [hcons] at hrest
    have hwhole : ∀ more, more <+: render keys →
        ∃ m part, CutAt (k :: keys) (Line.render k ++ more) m part := by
      intro more hmore
      obtain ⟨m, part, hm, rfl, hpart⟩ := ih hmore
      refine ⟨m + 1, part, Nat.succ_le_succ hm, ?_, hpart⟩
      rw [List.take_succ_cons, ← List.append_assoc]
      rfl
    rcases List.append_eq_append_iff.mp hrest with ⟨more, hmore, -⟩ | ⟨more, rfl, hmore⟩
    · have hprefix : cs <+: Line.text k ++ ['\n'] := ⟨more, by rw [← hmore, Line.render_eq]⟩
      rcases List.prefix_concat_iff.mp hprefix with rfl | hpart
      · rw [← Line.render_eq, ← List.append_nil (Line.render k)]
        exact hwhole [] (List.nil_prefix)
      · exact ⟨0, cs, Nat.zero_le _, rfl, Or.inr ⟨k, rfl, hpart⟩⟩
    · exact hwhole more ⟨rest, hmore.symm⟩

namespace CutAt

variable (h : CutAt keys cs m part)
include h

/-- No line that is still whole comes after the cut. -/
theorem le_of_render {n : Nat} (hn : n ≤ keys.length) (hwhole : render (keys.take n) <+: cs) :
    n ≤ m := by
  by_contra hlt
  have hm : m < keys.length := by omega
  have hnext : keys.take (m + 1) = keys.take m ++ [keys[m]] := by
    rw [List.take_add_one, List.getElem?_eq_getElem hm]
    rfl
  have hpart : part.length ≤ (Line.text keys[m]).length := by
    rcases h.part with hnil | ⟨k, hk, hpart⟩
    · simp [hnil]
    · rw [List.getElem?_eq_getElem hm] at hk
      cases hk
      exact hpart.length_le
  obtain ⟨more, hmore⟩ : keys.take (m + 1) <+: keys.take n :=
    List.take_prefix_take_left (by omega)
  have hlength := hwhole.length_le
  rw [← hmore, hnext, render_append, render_append, h.text_eq] at hlength
  have hline : (render [keys[m]]).length = (Line.text keys[m]).length + 1 := by
    simp [render, Line.render_eq]
  simp only [List.length_append, hline] at hlength
  omega

/-- What is left is read in parts: the whole lines, and the part of the next one. -/
theorem parse_eq (hkeys : Storable keys) (hlife : ∀ k ∈ keys, k.isWithinLifetime now = true) :
    parse (bytes cs) now = keys.take m ++ besides (keys.take m) (parse (bytes part) now) := by
  have hplain : ∀ c ∈ part, 1 ≤ c.toNat ∧ c.toNat < 128 := by
    intro c hc
    rcases h.part with hnil | ⟨k, -, hpart⟩
    · simp [hnil] at hc
    · exact Line.text_plain k c (hpart.subset hc)
  have hwhole : parse (serialize (keys.take m)) now = keys.take m := by
    rw [parse_serialize (hkeys.sublist (List.take_sublist m keys)), kept]
    exact List.filter_eq_self.mpr fun k hk => hlife k (List.mem_of_mem_take hk)
  have hbytes : bytes cs = serialize (keys.take m) ++ bytes part := by
    rw [h.text_eq, bytes, List.map_append]
    rfl
  have hparts := parse_append (isPlain_bytes (render_plain (keys.take m))) (isPlain_bytes hplain)
    (endsLine_serialize (keys.take m)) now
  rw [hbytes, serialize, hparts, ← serialize, hwhole]

end CutAt

/-- A file that was cut off holds the keys of its whole lines, in their order, and nothing else but
the key of the next line, with that key's own identifier and time, and with at least one byte and
not all of its secret. -/
theorem parse_truncated {keys : List Key} {now : Instant} (h : Storable keys)
    (hlife : ∀ k ∈ keys, k.isWithinLifetime now = true) {contents : List UInt8}
    (hcut : contents <+: serialize keys) :
    ∃ m ≤ keys.length,
      (∀ n ≤ keys.length, serialize (keys.take n) <+: contents → n ≤ m) ∧
      (parse contents now = keys.take m ∨
        ∃ k secret, keys[m]? = some k ∧ secret ≠ [] ∧ secret <+: k.secret ∧ secret ≠ k.secret ∧
          parse contents now = keys.take m ++ [{ k with secret := secret }]) := by
  obtain ⟨cs, hcs, rfl⟩ : ∃ cs, cs <+: render keys ∧ contents = bytes cs :=
    List.prefix_map_iff.mp hcut
  obtain ⟨m, part, hat⟩ := exists_cut hcs
  have hplain : ∀ c ∈ cs, c.toNat < 128 := fun c hc => (render_plain keys c (hcs.subset hc)).2
  have hlast : ∀ n ≤ keys.length, serialize (keys.take n) <+: bytes cs → n ≤ m := by
    intro n hn hwhole
    have hchars : characters (serialize (keys.take n)) <+: characters (bytes cs) := hwhole.map _
    rw [serialize, characters_bytes fun c hc => (render_plain _ c hc).2,
      characters_bytes hplain] at hchars
    exact hat.le_of_render hn hchars
  have hparse := hat.parse_eq h hlife
  rcases hat.part with rfl | ⟨k, hk, hpart⟩
  · exact ⟨m, hat.le_length, hlast, Or.inl (by rw [hparse]; exact List.append_nil _)⟩
  · have hmem := List.mem_of_getElem? hk
    have hreadable : k.isReadable now = true := by
      have hid := h.id_nonneg k hmem
      have hs := h.secret_ne_nil k hmem
      simp [Key.isReadable, hid, hs, hlife k hmem]
    rcases parse_bytes_part hreadable hpart with hnone | ⟨secret, hne, hsecret, hkey⟩
    · exact ⟨m, hat.le_length, hlast, Or.inl (by rw [hparse, hnone]; exact List.append_nil _)⟩
    · rw [hkey, besides_next h hk] at hparse
      by_cases hall : secret = k.secret
      · -- only the line feed is missing
        have hm : m < keys.length := (List.getElem?_eq_some_iff.mp hk).1
        refine ⟨m + 1, hm, fun n hn hwhole => Nat.le_succ_of_le (hlast n hn hwhole), Or.inl ?_⟩
        rw [hparse, hall, List.take_add_one, hk]
        rfl
      · exact ⟨m, hat.le_length, hlast, Or.inr ⟨k, secret, hk, hne, hsecret, hall, hparse⟩⟩

def cutKeys : List Key := [⟨7, 1000, [170]⟩, ⟨12, 990, [187]⟩, ⟨3, 1010, [1, 2, 3]⟩]

/-- The file of three keys without its last three bytes, two digits and a line feed. -/
def cutFile : List UInt8 := (serialize cutKeys).take 31

theorem cutKeys_storable : Storable cutKeys := ⟨by decide, by decide, by decide⟩

theorem parse_truncated_sample : (∀ k ∈ cutKeys, k.isWithinLifetime 1000 = true) ∧
    cutFile <+: serialize cutKeys ∧
    parse cutFile 1000 = [⟨7, 1000, [170]⟩, ⟨12, 990, [187]⟩, ⟨3, 1010, [1, 2]⟩] ∧
    ∃ m ≤ 3, 2 ≤ m ∧ (parse cutFile 1000 = cutKeys.take m ∨
      ∃ k secret, cutKeys[m]? = some k ∧ secret ≠ [] ∧ secret <+: k.secret ∧ secret ≠ k.secret ∧
        parse cutFile 1000 = cutKeys.take m ++ [{ k with secret := secret }]) := by
  have hlife : ∀ k ∈ cutKeys, k.isWithinLifetime 1000 = true := by decide
  have hcut : cutFile <+: serialize cutKeys := List.take_prefix _ _
  obtain ⟨m, hm, hlines, hkeys⟩ := parse_truncated cutKeys_storable hlife hcut
  exact ⟨hlife, hcut, by decide +kernel, m, hm, hlines 2 (by decide) (by decide +kernel), hkeys⟩

end KeyFile

end Keyrings

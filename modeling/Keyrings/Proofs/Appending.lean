import Keyrings.Proofs.KeyFile

/-! Files that go on. A text that ends in a line feed keeps its lines whatever comes after it, so
that a file can be read in parts: the keys of the part after a line feed are added to those before
it, but for the identifiers that are there already. Lines that cannot be read leave no trace. -/

namespace Keyrings

namespace Text

theorem putFirst_ne_nil (c : Char) (pieces : List (List Char)) : putFirst c pieces ≠ [] := by
  unfold putFirst
  split
  · simp
  · split <;> simp

theorem cut_ne_nil {cs : List Char} (h : cs ≠ []) : cut cs ≠ [] := by
  obtain ⟨c, rest, rfl⟩ := List.exists_cons_of_ne_nil h
  exact putFirst_ne_nil c (cut rest)

/-- Only the first piece can change. -/
theorem putFirst_append (c : Char) {pieces : List (List Char)} (h : pieces ≠ [])
    (more : List (List Char)) : putFirst c (pieces ++ more) = putFirst c pieces ++ more := by
  obtain ⟨piece, rest, rfl⟩ := List.exists_cons_of_ne_nil h
  unfold putFirst
  split_ifs <;> rfl

/-- No piece goes on after a line feed. The induction is on the text before it. -/
theorem cut_append {cs : List Char} (h : ∀ c ∈ cs.getLast?, c = '\n') (more : List Char) :
    cut (cs ++ more) = cut cs ++ cut more := by
  induction cs with
  | nil => rfl
  | cons c cs ih =>
    have hstep : ∀ ds, cut (c :: ds) = putFirst c (cut ds) := fun _ => rfl
    rw [List.cons_append, hstep, hstep]
    by_cases hnil : cs = []
    · subst hnil
      have hc : c = '\n' := h c rfl
      rw [List.nil_append, hc]
      rfl
    · have hlast : ∀ d ∈ cs.getLast?, d = '\n' := by
        intro d hd
        refine h d ?_
        rwa [List.getLast?_cons_of_ne_nil hnil]
      rw [ih hlast, putFirst_append c (cut_ne_nil hnil)]

/-- A text that ends in a line feed keeps its lines. -/
theorem lines_append {cs : List Char} (h : ∀ c ∈ cs.getLast?, c = '\n') (more : List Char) :
    lines (cs ++ more) = lines cs ++ lines more := by
  simp only [lines, cut_append h, List.map_append]

namespace Plain

theorem isPlain_append (bs more : List UInt8) :
    isPlain (bs ++ more) = (isPlain bs && isPlain more) := List.all_append

theorem characters_append (bs more : List UInt8) :
    characters (bs ++ more) = characters bs ++ characters more := List.map_append

end Plain

end Text

namespace KeyFile

open Text.Plain (isPlain characters isPlain_append characters_append)

/-- A place between two lines: what stands before it is nothing or ends in a line feed. -/
def EndsLine (contents : List UInt8) : Prop := contents = [] ∨ contents.getLast? = some 10

theorem EndsLine.append {a b : List UInt8} (ha : EndsLine a) (hb : EndsLine b) :
    EndsLine (a ++ b) := by
  rcases hb with rfl | hb
  · rwa [List.append_nil]
  · exact Or.inr (by rw [List.getLast?_append, hb, Option.some_or])

/-- The lines before such a place are complete. -/
theorem EndsLine.lines_append {a : List UInt8} (h : EndsLine a) (b : List UInt8) :
    Text.lines (characters (a ++ b)) =
      Text.lines (characters a) ++ Text.lines (characters b) := by
  rw [characters_append]
  refine Text.lines_append (fun c hc => ?_) _
  rcases h with rfl | hlast
  · cases hc
  · rw [characters, List.getLast?_map, hlast] at hc
    cases hc
    rfl

/-- The keys of a list that have none of the identifiers of others. -/
def besides (known keys : List Key) : List Key := keys.filter fun k => !hasId known k.id

/-- A key with a new identifier is new among the others with new identifiers as it is among all. -/
theorem hasId_besides {known keys : List Key} {id : Int32} (h : hasId known id = false) :
    hasId (besides known keys) id = hasId keys id := by
  simp only [hasId, besides, List.any_filter]
  congr 1
  funext k
  by_cases hk : k.id = id
  · subst hk
    simpa [hasId] using h
  · simp [hk]

/-- One more line has the same key beside known keys, unless they have its identifier. -/
theorem addLine_besides (now : Instant) (known keys : List Key) (line : List Char) :
    addLine now (known ++ besides known keys) line =
      known ++ besides known (addLine now keys line) := by
  unfold addLine
  cases Line.parse line now with
  | error fault => rfl
  | ok k =>
    have hid : hasId (known ++ besides known keys) k.id =
        (hasId known k.id || hasId (besides known keys) k.id) := List.any_append
    cases hknown : hasId known k.id with
    | true =>
      have hsame : besides known (keys ++ [k]) = besides known keys := by
        simp [besides, List.filter_append, hknown]
      simp only [hid, hknown, Bool.true_or, if_true]
      split_ifs
      · rfl
      · rw [hsame]
    | false =>
      have hmore : besides known (keys ++ [k]) = besides known keys ++ [k] := by
        simp [besides, List.filter_append, hknown]
      simp only [hid, hknown, Bool.false_or, hasId_besides hknown]
      split_ifs
      · rfl
      · rw [hmore, List.append_assoc]

/-- Lines read after others add the keys that they have by themselves, but for known identifiers. -/
theorem foldl_besides (now : Instant) (known : List Key) (lines : List (List Char)) :
    lines.foldl (addLine now) known =
      known ++ besides known (lines.foldl (addLine now) []) := by
  have hgeneral : ∀ keys, lines.foldl (addLine now) (known ++ besides known keys) =
      known ++ besides known (lines.foldl (addLine now) keys) := by
    induction lines with
    | nil => exact fun keys => rfl
    | cons line lines ih =>
      intro keys
      rw [List.foldl_cons, List.foldl_cons, addLine_besides, ih]
  simpa [besides] using hgeneral []

theorem parse_of_isPlain {contents : List UInt8} (h : isPlain contents = true) (now : Instant) :
    parse contents now = (Text.lines (characters contents)).foldl (addLine now) [] := if_pos h

/-- A file is read in parts. -/
theorem parse_append {a b : List UInt8} (ha : isPlain a = true) (hb : isPlain b = true)
    (h : EndsLine a) (now : Instant) :
    parse (a ++ b) now = parse a now ++ besides (parse a now) (parse b now) := by
  have hab : isPlain (a ++ b) = true := by rw [isPlain_append, ha, hb, Bool.and_self]
  rw [parse_of_isPlain hab, h.lines_append, List.foldl_append, foldl_besides,
    parse_of_isPlain ha, parse_of_isPlain hb]

def AllRefused (contents : List UInt8) (now : Instant) : Prop :=
  ∀ line ∈ Text.lines (characters contents), ∃ fault, Line.parse line now = .error fault

theorem parse_of_allRefused {contents : List UInt8} {now : Instant}
    (h : AllRefused contents now) : parse contents now = [] := by
  unfold parse
  split_ifs
  · refine List.foldlRecOn _ (addLine now) (motive := fun keys => keys = []) rfl ?_
    rintro keys rfl line hline
    obtain ⟨fault, hfault⟩ := h line hline
    rw [addLine, hfault]
  · rfl

/-- A file that goes on after a line feed has the keys it had, in their places, and after them those
of the text that follows whose identifiers are new. So lines that hold no key can stand between any
two lines of a file. -/
theorem parse_in_parts {a b : List UInt8} (ha : isPlain a = true) (hb : isPlain b = true)
    (h : EndsLine a) (now : Instant) :
    parse (a ++ b) now =
      parse a now ++ (parse b now).filter (fun k => !hasId (parse a now) k.id) ∧
    (∀ junk, isPlain junk = true → EndsLine junk → AllRefused junk now →
      parse (a ++ (junk ++ b)) now = parse (a ++ b) now) ∧
    parse a now <+: parse (a ++ b) now := by
  refine ⟨parse_append ha hb h now, fun junk hplain hend hrefused => ?_, ?_⟩
  · have hjunk := parse_of_allRefused hrefused
    have hfront : parse (a ++ junk) now = parse a now := by
      rw [parse_append ha hplain h, hjunk]
      exact List.append_nil _
    have hplain' : isPlain (a ++ junk) = true := by rw [isPlain_append, ha, hplain, Bool.and_self]
    rw [← List.append_assoc, parse_append hplain' hb (h.append hend), hfront,
      parse_append ha hb h]
  · rw [parse_append ha hb h]
    exact List.prefix_append _ _

def sampleFront : List UInt8 := Text.Plain.bytes "1 1000 aa\r\n2 999 bb\n".toList

/-- An empty line, one without a number, an expired one, one from ahead and one with half a byte. -/
def sampleJunk : List UInt8 :=
  Text.Plain.bytes "\r\nx\n3 500 cc\r\n4 2000 cc\n5 1000 ccc\r\n".toList

/-- An identifier that is there already and a new one, on a line without an end. -/
def sampleRest : List UInt8 := Text.Plain.bytes "2 1000 dd\n6 1000 ee".toList

theorem parse_in_parts_sample :
    parse (sampleFront ++ sampleRest) 1000 = [⟨1, 1000, [170]⟩, ⟨2, 999, [187]⟩, ⟨6, 1000, [238]⟩] ∧
    parse (sampleFront ++ (sampleJunk ++ sampleRest)) 1000 =
      parse (sampleFront ++ sampleRest) 1000 ∧
    parse sampleFront 1000 <+: parse (sampleFront ++ sampleRest) 1000 := by
  obtain ⟨hlaw, hinsert, hbefore⟩ := parse_in_parts (a := sampleFront) (b := sampleRest)
    (by decide +kernel) (by decide +kernel) (Or.inr (by decide +kernel)) 1000
  have hrefused : AllRefused sampleJunk 1000 := by
    have hall : (Text.lines (characters sampleJunk)).all
        (fun line => !(Line.parse line 1000).isOk) = true := by decide +kernel
    intro line hline
    have hline' := List.all_eq_true.mp hall line hline
    cases hparse : Line.parse line 1000 with
    | error fault => exact ⟨fault, rfl⟩
    | ok k => simp [hparse, Except.isOk, Except.toBool] at hline'
  refine ⟨?_, hinsert sampleJunk (by decide +kernel) (Or.inr (by decide +kernel)) hrefused, hbefore⟩
  rw [hlaw]
  decide +kernel

end KeyFile

end Keyrings

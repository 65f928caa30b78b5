import Templating.Entity
import Templating.Proofs.Markup.References
import Templating.Proofs.Markup.Spelling

/-!
**Printing tags and comments.**

An attribute is printed with its value in double quotes, where ampersands and quotes are spelled by
reference.  What was printed this way is read back, whatever follows it.

Main definitions:

* `Templating.Entity.encode` — a text with its ampersands and quotes spelled by reference;
* `Templating.Markup.printAttribute`, `Templating.Markup.printStart`, `Templating.Markup.printEnd`,
  `Templating.Markup.printComment` — attributes, tags and comments as they are printed;
* `Templating.Markup.IsAttributeName` — the names that attributes may have.

Main results:

* `Templating.Entity.decode_encode` — decoding undoes encoding;
* `Templating.Markup.attribute?_printAttribute` — a printed attribute is read back;
* `Templating.Markup.markup?_printStart`, `Templating.Markup.markup?_printEnd`,
  `Templating.Markup.markup?_printComment` — **printed tags and comments are read back**;
* `Templating.Markup.markup?_eq_none` — markup starts with an angle bracket.
-/

set_option autoImplicit false

namespace Templating

/-! ### References -/

namespace Entity

/-- A character as it is spelled in a printed value. -/
def encodeChar (c : Char) : List Char :=
  if c = '&' then "&amp;".toList else if c = '"' then "&quot;".toList else [c]

/-- A text with its ampersands and quotes spelled by reference. -/
def encode (s : List Char) : List Char := s.flatMap encodeChar

theorem isSpelling_encodeChar (newlines : Bool) (c : Char) :
    IsSpelling newlines c (encodeChar c) := by
  have hnames : ∀ b, ("amp;".toList, '&') ∈ references b ∧ ("quot;".toList, '"') ∈ references b := by
    decide
  unfold encodeChar
  split
  · rename_i hc
    exact .inr ⟨"amp;".toList, by rw [hc]; exact (hnames newlines).1, rfl⟩
  · rename_i hc
    split
    · rename_i hquote
      exact .inr ⟨"quot;".toList, by rw [hquote]; exact (hnames newlines).2, rfl⟩
    · exact .inl ⟨hc, rfl⟩

/-- **Decoding undoes encoding**, whether line feeds are decoded or not. -/
theorem decode_encode (newlines : Bool) (s : List Char) : decode newlines (encode s) = s :=
  decode_flatMap (isSpelling_encodeChar newlines) s

/-- Nothing that is encoded ends a value in quotes. -/
theorem ne_quote_of_mem_encode {s : List Char} {c : Char} (h : c ∈ encode s) : c ≠ '"' := by
  obtain ⟨d, -, hc⟩ := List.mem_flatMap.mp h
  rintro rfl
  unfold encodeChar at hc
  split at hc
  · simp at hc
  · split at hc
    · simp at hc
    · rename_i hd
      exact hd (List.mem_singleton.mp hc).symm

end Entity

/-! ### Letter case -/

namespace Text

theorem target_of_mem_foldRuns {r : Run} (h : r ∈ foldRuns) : 64 < r.target := by
  have hall : ∀ r ∈ foldRuns, 64 < r.target := by decide +kernel
  exact hall r h

/-- A capital letter becomes a small one, and any other character stays. -/
theorem toLower_cases (c : Char) : c.toLower = c ∨ 64 < c.toLower.toNat := by
  unfold Char.toLower
  split
  · rename_i h
    have hlow : 65 ≤ c.val.toNat := h.1
    have hhigh : c.val.toNat ≤ 90 := h.2
    have hshift : ('a'.val - 'A'.val).toNat = 32 := by decide
    refine .inr ?_
    change 64 < (c.val + ('a'.val - 'A'.val)).toNat
    rw [UInt32.toNat_add, hshift]
    omega
  · exact .inl rfl

/-- What changes with case becomes no character before the letters. -/
theorem fold_cases (c : Char) : fold c = c ∨ (fold c).toNat = 0 ∨ 64 < (fold c).toNat := by
  unfold fold
  split
  · rcases toLower_cases c with h | h
    · exact .inl h
    · exact .inr (.inr h)
  · unfold lookupRuns
    split
    · rename_i n hn
      obtain ⟨r, hr, himage⟩ := List.exists_of_findSome?_eq_some hn
      have htarget := target_of_mem_foldRuns hr
      have hlt : 64 < n := by
        unfold Run.image? at himage
        split at himage
        · cases himage
          omega
        · cases himage
      by_cases hvalid : n.isValidChar
      · have hchar : Char.ofNat n = Char.ofNatAux n hvalid := dif_pos hvalid
        rw [hchar]
        exact .inr (.inr hlt)
      · have hchar : Char.ofNat n = '\x00' := dif_neg hvalid
        rw [hchar]
        exact .inr (.inl rfl)
    · exact .inl rfl

/-- Characters before the letters have no case. -/
theorem eq_of_fold_eq {p c : Char} (hpos : 0 < p.toNat) (hp : p.toNat < 65)
    (h : fold p = fold c) : c = p := by
  have hself : fold p = p := by
    have hlower : p.toLower = p := by
      unfold Char.toLower
      rw [dif_neg]
      rintro ⟨hge, -⟩
      have hlow : 65 ≤ p.toNat := hge
      omega
    unfold fold
    rw [if_pos (by omega), hlower]
  rw [hself] at h
  rcases fold_cases c with hc | hc | hc
  · exact (h.trans hc).symm
  · rw [← h] at hc
    omega
  · rw [← h] at hc
    omega
end Text

namespace Markup

open Text

/-! ### Names -/

theorem simpleName?_append {n r : List Char} {d : Char} (hn : IsSimpleName n)
    (hd : isNameChar d = false) : simpleName? (n ++ d :: r) = some (n, d :: r) := by
  obtain ⟨c, s, rfl, hc, hs⟩ := hn
  simp only [List.cons_append, simpleName?, hc, if_true]
  rw [List.takeWhile_append_of_pos hs, List.dropWhile_append_of_pos hs]
  simp [hd]

/-- A name is read up to a character that does not go on with it. -/
theorem tagName?_append {n r : List Char} {d : Char} (hn : IsTagName n)
    (hd : isNameChar d = false) (hcolon : d ≠ ':') : tagName? (n ++ d :: r) = some (n, d :: r) := by
  rcases hn with hn | ⟨a, b, rfl, ha, hb⟩
  · simp only [tagName?, simpleName?_append hn hd, if_neg hcolon]
  · have hread : simpleName? (a ++ ':' :: (b ++ d :: r)) = some (a, ':' :: (b ++ d :: r)) :=
      simpleName?_append ha (by decide)
    simp only [List.append_assoc, List.cons_append, tagName?, hread, if_true,
      simpleName?_append hb hd]

theorem IsSimpleName.exists_cons {n : List Char} (h : IsSimpleName n) :
    ∃ c s, n = c :: s ∧ isNameStart c = true := by
  obtain ⟨c, s, rfl, hc, -⟩ := h
  exact ⟨c, s, rfl, hc⟩

theorem IsTagName.exists_cons {n : List Char} (h : IsTagName n) :
    ∃ c s, n = c :: s ∧ isNameStart c = true := by
  rcases h with h | ⟨a, b, rfl, ha, -⟩
  · exact h.exists_cons
  · obtain ⟨c, s, rfl, hc⟩ := ha.exists_cons
    exact ⟨c, s ++ ':' :: b, rfl, hc⟩

/-! ### Attributes -/

/-- The names that attributes may have. -/
def IsAttributeName (n : List Char) : Prop := n ≠ [] ∧ ∀ c ∈ n, isAttributeNameChar c = true

/-- An attribute as it is printed. -/
def printAttribute (a : String × String) : List Char :=
  ' ' :: a.1.toList ++ '=' :: '"' :: Entity.encode a.2.toList ++ ['"']

/-- A printed attribute as it is read. -/
def rawAttribute (a : String × String) : RawAttribute where
  lead := [' ']
  name := a.1.toList
  assignment := '=' :: '"' :: Entity.encode a.2.toList ++ ['"']
  value := Entity.encode a.2.toList

/-- The name of an attribute starts with no space, and with nothing that ends a tag. -/
theorem IsAttributeName.exists_cons {n : List Char} (hn : IsAttributeName n) :
    ∃ c s, n = c :: s ∧ isSpace c = false ∧ c ≠ '>' ∧ c ≠ '/' := by
  obtain ⟨c, s, rfl⟩ := List.exists_cons_of_ne_nil hn.1
  have hc := hn.2 c (by simp)
  simp only [isAttributeNameChar, Bool.not_eq_true', Bool.or_eq_false_iff,
    beq_eq_false_iff_ne] at hc
  exact ⟨c, s, rfl, hc.1.1.1.1.1.1, hc.1.1.2, hc.1.2⟩

theorem plainName?_append {n r : List Char} (hn : IsAttributeName n) :
    plainName? (n ++ '=' :: r) = some (n, '=' :: r) := by
  obtain ⟨hne, hchars⟩ := hn
  obtain ⟨c, s, rfl⟩ := List.exists_cons_of_ne_nil hne
  have htake : (c :: s ++ '=' :: r).takeWhile isAttributeNameChar = c :: s := by
    rw [List.takeWhile_append_of_pos hchars]
    simp [isAttributeNameChar]
  have hdrop : (c :: s ++ '=' :: r).dropWhile isAttributeNameChar = '=' :: r := by
    rw [List.dropWhile_append_of_pos hchars]
    simp [isAttributeNameChar]
  simp only [plainName?, htake, hdrop]

theorem not_mem_of_throughBracket? {s a r : List Char} (h : throughBracket? s = some (a, r)) :
    '=' ∉ a := by
  induction s generalizing a with
  | nil => simp [throughBracket?] at h
  | cons c s ih =>
      simp only [throughBracket?] at h
      split at h
      · cases h
        rename_i hc
        simp [hc]
      · split at h
        · cases h
        · rename_i hc
          obtain ⟨⟨a', r'⟩, hp, heq⟩ := Option.map_eq_some_iff.mp h
          cases heq
          simpa [ne_comm, hc] using ih hp

theorem not_mem_of_directiveMark? {s a r : List Char} (h : directiveMark? s = some (a, r)) :
    '=' ∉ a := by
  cases s with
  | nil => simp [directiveMark?] at h
  | cons c s =>
      simp only [directiveMark?] at h
      split at h
      · rename_i hc
        cases h
        rcases hc with rfl | rfl | rfl <;> decide
      · split at h
        · cases h
        · split at h
          · cases h
          · cases h
          · rename_i d n e r' hn hr
            split at h
            · cases h
              -- the name of a directive is made of word characters
              have hword : '=' ∉ d :: n := by
                rw [← hn]
                intro hmem
                exact absurd (List.mem_takeWhile_imp hmem) (by decide)
              simpa using hword
            · cases h

/-- A name with a dynamic argument has no equals sign up to its bracket, and goes on as any other
name does. -/
theorem exists_of_dynamicName? {s m t : List Char} (h : dynamicName? s = some (m, t)) :
    ∃ u v, s = u ++ v ∧ '=' ∉ u ∧ m = u ++ v.takeWhile isAttributeNameChar ∧
      t = v.dropWhile isAttributeNameChar := by
  unfold dynamicName? at h
  split at h
  · rename_i mark b c rest hmark
    split at h
    · rename_i hbracket
      split at h
      · rename_i inside r hinside
        cases h
        refine ⟨mark ++ b :: c :: inside, r, ?_, ?_, by simp, rfl⟩
        · rw [append_of_directiveMark? hmark, append_of_throughBracket? hinside]
          simp
        · have hmark' := not_mem_of_directiveMark? hmark
          have hinside' := not_mem_of_throughBracket? hinside
          simp [hmark', hinside', hbracket.1, Ne.symm hbracket.2]
      · cases h
    · cases h
  · cases h

/-- A name with a dynamic argument is read up to the equals sign. -/
theorem eq_of_dynamicName? {n m r t : List Char} (hn : IsAttributeName n)
    (h : dynamicName? (n ++ '=' :: r) = some (m, t)) : m = n ∧ t = '=' :: r := by
  obtain ⟨u, v, hsplit, hu, rfl, rfl⟩ := exists_of_dynamicName? h
  -- up to its bracket it is a part of the name
  obtain ⟨w, rfl, rfl⟩ : ∃ w, n = u ++ w ∧ v = w ++ '=' :: r := by
    rcases List.append_eq_append_iff.mp hsplit with ⟨w, rfl, hw⟩ | ⟨w, hw, hv⟩
    · cases w with
      | nil => exact ⟨[], by simp, by simpa using hw.symm⟩
      | cons c w =>
          obtain ⟨rfl, -⟩ := List.cons.inj hw
          simp at hu
    · exact ⟨w, hw, hv⟩
  have hw : ∀ c ∈ w, isAttributeNameChar c = true := fun c hc => hn.2 c (by simp [hc])
  rw [List.takeWhile_append_of_pos hw, List.dropWhile_append_of_pos hw]
  simp [isAttributeNameChar]

/-- The name of an attribute is read up to the equals sign. -/
theorem names_append {n r : List Char} (hn : IsAttributeName n) :
    (dynamicName? (n ++ '=' :: r)).or (plainName? (n ++ '=' :: r)) = some (n, '=' :: r) := by
  cases hdynamic : dynamicName? (n ++ '=' :: r) with
  | none => exact plainName?_append hn
  | some p =>
      obtain ⟨m, t⟩ := p
      obtain ⟨rfl, rfl⟩ := eq_of_dynamicName? hn hdynamic
      rfl

theorem assignment?_quoted {v r : List Char} (hv : ∀ c ∈ v, c ≠ '"')
    (hr : ∀ c, r.head? = some c → c ≠ '"') :
    assignment? ('=' :: ('"' :: v ++ '"' :: r)) = some ('=' :: '"' :: v ++ ['"'], v, r) := by
  have hall : ∀ c ∈ v, (c != '"') = true := by simpa using hv
  have hquotes : r.takeWhile (· == '"') = [] ∧ r.dropWhile (· == '"') = r := by
    cases r with
    | nil => exact ⟨rfl, rfl⟩
    | cons c r =>
        have hc : (c == '"') = false := by simpa using hr c rfl
        simp [hc]
  have hquoted : quoted? '"' (v ++ '"' :: r) = some ('"' :: v ++ ['"'], v, r) := by
    simp only [quoted?, List.takeWhile_append_of_pos hall, List.dropWhile_append_of_pos hall]
    simp [hquotes]
  have hsign : isSpace '=' = false := by decide
  have hmark : isSpace '"' = false := by decide
  simp [assignment?, value?, hsign, hmark, hquoted]

/-- A printed attribute starts with a single space. -/
theorem lead_printAttribute {a : String × String} (ha : IsAttributeName a.1.toList)
    (r : List Char) : (printAttribute a ++ r).takeWhile isSpace = [' '] ∧
      (printAttribute a ++ r).dropWhile isSpace =
        a.1.toList ++ '=' :: ('"' :: Entity.encode a.2.toList ++ '"' :: r) := by
  obtain ⟨c, s, hname, hc, -⟩ := ha.exists_cons
  have hspace : isSpace ' ' = true := by decide
  simp [printAttribute, hname, hspace, hc]

/-- **A printed attribute is read back.** -/
theorem attribute?_printAttribute {a : String × String} {r : List Char}
    (ha : IsAttributeName a.1.toList) (hr : ∀ c, r.head? = some c → c ≠ '"') :
    attribute? (printAttribute a ++ r) = some (rawAttribute a, r) := by
  have hname := names_append (r := '"' :: Entity.encode a.2.toList ++ '"' :: r) ha
  have hvalue := assignment?_quoted (v := Entity.encode a.2.toList)
    (fun c hc => Entity.ne_quote_of_mem_encode hc) hr
  obtain ⟨lead, rest⟩ := lead_printAttribute ha r
  simp only [attribute?, lead, rest, hname, hvalue]
  rfl

/-! ### Start tags -/

/-- A start tag as it is printed. -/
def printStart (name : String) (attributes : List (String × String)) : List Char :=
  '<' :: name.toList ++ attributes.flatMap printAttribute ++ ['>']

/-- A printed start tag as it is read. -/
def rawStartTag (name : String) (attributes : List (String × String)) : RawStartTag where
  name := name.toList
  attributes := attributes.map rawAttribute
  tagEnd := ['>']
  selfClosing := false

theorem tagEnd?_printAttribute {a : String × String} (ha : IsAttributeName a.1.toList)
    (r : List Char) : tagEnd? (printAttribute a ++ r) = none := by
  obtain ⟨c, s, hname, -, hgt, hslash⟩ := ha.exists_cons
  simp [tagEnd?, (lead_printAttribute ha r).2, hname, hgt, hslash]

theorem attributes?_of_attribute? {s r : List Char} {a : RawAttribute} (hend : tagEnd? s = none)
    (h : attribute? s = some (a, r)) :
    attributes? s = (attributes? r).map fun p => (a :: p.1, p.2) := by
  rw [attributes?, hend]
  dsimp only
  split
  · rename_i h'
    rw [h] at h'
    cases h'
  · rename_i h'
    rw [h] at h'
    cases h'
    rfl

/-- Printed attributes are read up to the end of their tag. -/
theorem attributes?_flatMap (attributes : List (String × String))
    (h : ∀ a ∈ attributes, IsAttributeName a.1.toList) (r : List Char) :
    attributes? (attributes.flatMap printAttribute ++ '>' :: r) =
      some (attributes.map rawAttribute, ['>'], false, r) := by
  induction attributes with
  | nil =>
      have hend : tagEnd? ('>' :: r) = some (['>'], false, r) := by
        have hspace : isSpace '>' = false := by decide
        simp [tagEnd?, hspace]
      simp [attributes?, hend]
  | cons a attributes ih =>
      have ha := h a (by simp)
      -- what follows the value is a space or the end of the tag
      have hnext : ∀ c, (attributes.flatMap printAttribute ++ '>' :: r).head? = some c →
          c ≠ '"' := by
        intro c hc
        cases attributes with
        | nil =>
            obtain rfl : '>' = c := by simpa using hc
            decide
        | cons b attributes =>
            obtain rfl : ' ' = c := by simpa [printAttribute] using hc
            decide
      rw [List.flatMap_cons, List.append_assoc,
        attributes?_of_attribute? (tagEnd?_printAttribute ha _) (attribute?_printAttribute ha hnext),
        ih fun b hb => h b (by simp [hb])]
      rfl

theorem startTag?_printStart {name : String} {attributes : List (String × String)}
    (hname : IsTagName name.toList) (h : ∀ a ∈ attributes, IsAttributeName a.1.toList)
    (r : List Char) :
    startTag? (printStart name attributes ++ r) = some (rawStartTag name attributes, r) := by
  have hread : ∀ d t, attributes.flatMap printAttribute ++ '>' :: r = d :: t →
      isNameChar d = false ∧ d ≠ ':' := by
    intro d t hd
    cases attributes with
    | nil =>
        obtain ⟨rfl, -⟩ := List.cons.inj hd
        decide
    | cons b attributes =>
        obtain ⟨rfl, -⟩ := List.cons.inj hd
        decide
  obtain ⟨d, t, hd⟩ : ∃ d t, attributes.flatMap printAttribute ++ '>' :: r = d :: t :=
    List.exists_cons_of_ne_nil (by simp)
  have htag : tagName? (name.toList ++ (attributes.flatMap printAttribute ++ '>' :: r)) =
      some (name.toList, attributes.flatMap printAttribute ++ '>' :: r) := by
    rw [hd]
    exact tagName?_append hname (hread d t hd).1 (hread d t hd).2
  simp [printStart, startTag?, htag, attributes?_flatMap attributes h, rawStartTag]

/-! ### End tags and comments -/

/-- An end tag as it is printed. -/
def printEnd (name : String) : List Char := '<' :: '/' :: name.toList ++ ['>']

theorem endTag?_printEnd {name : String} (hname : IsTagName name.toList) (r : List Char) :
    endTag? (printEnd name ++ r) = some (.endTag name.toList [], r) := by
  have hread : tagName? (name.toList ++ '>' :: r) = some (name.toList, '>' :: r) :=
    tagName?_append hname (by decide) (by decide)
  have hstrip : strip? ['<', '/'] (printEnd name ++ r) = some (name.toList ++ '>' :: r) :=
    strip?_eq_some_iff.mpr (by simp [printEnd])
  simp [endTag?, hstrip, hread]

/-- A comment as it is printed. -/
def printComment (text : String) : List Char :=
  '<' :: '!' :: '-' :: '-' :: text.toList ++ ['-', '-', '>']

/-- The end mark of a comment that does not occur in the text before it is found. -/
theorem cut?_commentEnd {s : List Char} (h : ¬['-', '-', '>'] <:+: s) (r : List Char) :
    cut? ['-', '-', '>'] (s ++ '-' :: '-' :: '>' :: r) = some (s, r) := by
  induction s with
  | nil => simp [cut?, strip?]
  | cons c s ih =>
      have hrest : ¬['-', '-', '>'] <:+: s := fun hs => h (List.infix_cons hs)
      have hstrip : strip? ['-', '-', '>'] (c :: s ++ '-' :: '-' :: '>' :: r) = none := by
        cases hs : strip? ['-', '-', '>'] (c :: s ++ '-' :: '-' :: '>' :: r) with
        | none => rfl
        | some t =>
            -- the mark would start inside the text, and its bracket is not there
            have heq := strip?_eq_some_iff.mp hs
            rcases s with _ | ⟨d, _ | ⟨e, s⟩⟩
            · simp at heq
            · simp at heq
            · simp only [List.cons_append, List.nil_append, List.cons.injEq] at heq
              obtain ⟨rfl, rfl, rfl, -⟩ := heq
              exact absurd ⟨[], s, rfl⟩ h
      have hcut := ih hrest
      rw [List.cons_append] at hstrip ⊢
      simp [cut?, hstrip, hcut]

theorem comment?_printComment {text : String} (h : ¬['-', '-', '>'] <:+: text.toList)
    (r : List Char) : comment? (printComment text ++ r) = some (.comment text.toList, r) := by
  have hstrip : strip? ['<', '!', '-', '-'] (printComment text ++ r) =
      some (text.toList ++ '-' :: '-' :: '>' :: r) :=
    strip?_eq_some_iff.mpr (by simp [printComment])
  simp [comment?, hstrip, cut?_commentEnd h]

/-! ### Pieces -/

/-- A comment, a conditional section and a document type start with an exclamation mark. -/
theorem declarations_eq_none {c : Char} (hc : c ≠ '!') (s : List Char) :
    comment? ('<' :: c :: s) = none ∧ conditional? ('<' :: c :: s) = none ∧
      doctype? ('<' :: c :: s) = none := by
  have hmark : fold '!' ≠ fold c := fun h => hc (eq_of_fold_eq (by decide) (by decide) h)
  simp [comment?, conditional?, doctype?, doctypeMark, dropFold?, strip?, hmark, Ne.symm hc]

/-- **A printed start tag is read back.** -/
theorem markup?_printStart {name : String} {attributes : List (String × String)}
    (hname : IsTagName name.toList) (h : ∀ a ∈ attributes, IsAttributeName a.1.toList)
    (r : List Char) : markup? (printStart name attributes ++ r) =
      some (.startTag (rawStartTag name attributes), r) := by
  have hread := startTag?_printStart hname h r
  obtain ⟨c, s, hcons, hc⟩ := hname.exists_cons
  have hslash : c ≠ '/' := by
    rintro rfl
    cases hc
  obtain ⟨hcomment, hconditional, hdoctype⟩ := declarations_eq_none (c := c)
    (by rintro rfl; cases hc) (s ++ (attributes.flatMap printAttribute ++ '>' :: r))
  have hshape : printStart name attributes ++ r =
      '<' :: c :: (s ++ (attributes.flatMap printAttribute ++ '>' :: r)) := by
    simp [printStart, hcons]
  rw [hshape] at hread ⊢
  simp [markup?, hcomment, hconditional, hdoctype, endTag?, strip?, Ne.symm hslash, hread]

/-- **A printed end tag is read back.** -/
theorem markup?_printEnd {name : String} (hname : IsTagName name.toList) (r : List Char) :
    markup? (printEnd name ++ r) = some (.endTag name.toList [], r) := by
  have hread := endTag?_printEnd hname r
  obtain ⟨hcomment, hconditional, hdoctype⟩ := declarations_eq_none (c := '/') (by decide)
    (name.toList ++ '>' :: r)
  have hshape : printEnd name ++ r = '<' :: '/' :: (name.toList ++ '>' :: r) := by
    simp [printEnd]
  rw [hshape] at hread ⊢
  simp [markup?, hcomment, hconditional, hdoctype, hread]

/-- **A printed comment is read back.** -/
theorem markup?_printComment {text : String} (h : ¬['-', '-', '>'] <:+: text.toList)
    (r : List Char) : markup? (printComment text ++ r) = some (.comment text.toList, r) := by
  simp [markup?, comment?_printComment h r]

/-- Markup starts with an angle bracket. -/
theorem markup?_eq_none {c : Char} (hc : c ≠ '<') (s : List Char) : markup? (c :: s) = none := by
  have hmark : fold '<' ≠ fold c := fun h => hc (eq_of_fold_eq (by decide) (by decide) h)
  simp [markup?, comment?, conditional?, doctype?, doctypeMark, dropFold?, endTag?, startTag?, strip?,
    hmark, hc, Ne.symm hc]

end Markup

end Templating

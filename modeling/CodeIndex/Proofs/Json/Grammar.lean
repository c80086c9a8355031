import CodeIndex.Json.Reader

/-! The texts of JSON values, by the form of the values and apart from any way of reading them.  One
value has many texts: they differ in white space, in escapes and in how a number is written. -/

namespace CodeIndex.Json

/-- Which texts stand for which things. -/
abbrev Spelling (α : Type) := List Char → α → Prop

/-! ### White space -/

def Blank (text : List Char) : Prop := ∀ c ∈ text, isSpace c = true

/-- The same texts with white space in front. -/
inductive Indented {α : Type} (R : Spelling α) : Spelling α where
  | intro {gap body : List Char} {a : α} (hgap : Blank gap) (h : R body a) :
      Indented R (gap ++ body) a

/-- Four hexadecimal digits. -/
inductive CodeUnit : Spelling Nat where
  | digits {a b c d : Char} {w x y z : Nat} (ha : hexValue? a = some w) (hb : hexValue? b = some x)
      (hc : hexValue? c = some y) (hd : hexValue? d = some z) :
      CodeUnit [a, b, c, d] (((w * 16 + x) * 16 + y) * 16 + z)

/-- A code unit that is the first of a pair. -/
def High (unit : Nat) : Prop := 0xD800 ≤ unit ∧ unit ≤ 0xDBFF

/-- A code unit that is the second of a pair. -/
def Low (unit : Nat) : Prop := 0xDC00 ≤ unit ∧ unit ≤ 0xDFFF

/-- The characters behind a backslash and what they stand for. -/
def shortEscapes : List (Char × Char) :=
  [('"', '"'), ('\\', '\\'), ('/', '/'), ('b', '\x08'), ('f', '\x0c'), ('n', '\n'), ('r', '\r'),
    ('t', '\t')]

/-- The texts of one character inside quotes. -/
inductive CharText : Spelling Char where
  | plain {c : Char} (hbackslash : c ≠ '\\') (hquote : c ≠ '"') (hcontrol : 0x20 ≤ c.toNat) :
      CharText [c] c
  | short {e c : Char} (h : (e, c) ∈ shortEscapes) : CharText ['\\', e] c
  | unit {text : List Char} {n : Nat} (h : CodeUnit text n) (hhigh : ¬ High n) (hlow : ¬ Low n) :
      CharText ('\\' :: 'u' :: text) (Char.ofNat n)
  | pair {text text' : List Char} {high low : Nat} (h : CodeUnit text high)
      (h' : CodeUnit text' low) (hhigh : High high) (hlow : Low low) :
      CharText ('\\' :: 'u' :: (text ++ '\\' :: 'u' :: text'))
        (Char.ofNat (0x10000 + (high - 0xD800) * 0x400 + (low - 0xDC00)))

structure Digits (text : List Char) : Prop where
  nonempty : text ≠ []
  isDigit : ∀ c ∈ text, c.isDigit = true

/-- The digits before the point; a zero stands alone. -/
structure Whole (text : List Char) : Prop extends Digits text where
  leading : ∀ rest, text = '0' :: rest → rest = []

inductive FractionText : Spelling (Option (List Char)) where
  | none : FractionText [] none
  | point {ds : List Char} (h : Digits ds) : FractionText ('.' :: ds) (some ds)

/-- A sign of an exponent, and whether it is a minus. -/
inductive SignText : Spelling Bool where
  | none : SignText [] false
  | plus : SignText ['+'] false
  | minus : SignText ['-'] true

inductive ExponentText : Spelling (Option Int) where
  | none : ExponentText [] none
  | mark {mark : Char} {sign ds : List Char} {negative : Bool} (hmark : mark = 'e' ∨ mark = 'E')
      (hsign : SignText sign negative) (h : Digits ds) :
      ExponentText (mark :: (sign ++ ds)) (some (exponentValue negative ds))

inductive PartsText : Spelling Parts where
  | intro {whole f e : List Char} {fraction : Option (List Char)} {exponent : Option Int}
      (hwhole : Whole whole) (hfraction : FractionText f fraction)
      (hexponent : ExponentText e exponent) : PartsText (whole ++ (f ++ e)) ⟨whole, fraction, exponent⟩

/-- The numerals of a number; those beyond the doubles have none. -/
inductive NumberText : Spelling Number where
  | plain {text : List Char} {p : Parts} {n : Number} (h : PartsText text p)
      (hn : p.number? false = some n) : NumberText text n
  | negative {text : List Char} {p : Parts} {n : Number} (h : PartsText text p)
      (hn : p.number? true = some n) : NumberText ('-' :: text) n

/-! ### Values -/

/-- What follows an entry: white space, and if there are more of them, a comma and the next. -/
inductive MoreText {α : Type} (R : Spelling α) : Spelling (List α) where
  | last {gap : List Char} (hgap : Blank gap) : MoreText R gap []
  | next {gap text texts : List Char} {a : α} {as : List α} (hgap : Blank gap)
      (h : Indented R text a) (hs : MoreText R texts as) :
      MoreText R (gap ++ ',' :: (text ++ texts)) (a :: as)

/-- Entries with commas between them and white space around them. -/
inductive EntriesText {α : Type} (R : Spelling α) : Spelling (List α) where
  | none {gap : List Char} (hgap : Blank gap) : EntriesText R gap []
  | some {text texts : List Char} {a : α} {as : List α} (h : Indented R text a)
      (hs : MoreText R texts as) : EntriesText R (text ++ texts) (a :: as)

section

variable {α β : Type} {R : Spelling α} {S : Spelling β} {f : β → α} {P : β → Prop}

theorem Indented.lift (h : ∀ text a, R text a → ∃ b, S text b ∧ f b = a ∧ P b) {text : List Char}
    {a : α} (htext : Indented R text a) : ∃ b, Indented S text b ∧ f b = a ∧ P b := by
  obtain ⟨hgap, hbody⟩ := htext
  obtain ⟨b, hb, hf, hp⟩ := h _ _ hbody
  exact ⟨b, .intro hgap hb, hf, hp⟩

theorem MoreText.lift (h : ∀ text a, R text a → ∃ b, S text b ∧ f b = a ∧ P b) {text : List Char}
    {as : List α} (htext : MoreText R text as) :
    ∃ bs, MoreText S text bs ∧ bs.map f = as ∧ ∀ b ∈ bs, P b := by
  induction htext with
  | last hgap => exact ⟨[], .last hgap, rfl, by simp⟩
  | next hgap ha hs ih =>
    obtain ⟨b, hb, rfl, hp⟩ := ha.lift h
    obtain ⟨bs, hbs, rfl, hps⟩ := ih
    exact ⟨b :: bs, .next hgap hb hbs, rfl, List.forall_mem_cons.2 ⟨hp, hps⟩⟩

/-- Entries whose texts are also texts of other things. -/
theorem EntriesText.lift (h : ∀ text a, R text a → ∃ b, S text b ∧ f b = a ∧ P b)
    {text : List Char} {as : List α} (htext : EntriesText R text as) :
    ∃ bs, EntriesText S text bs ∧ bs.map f = as ∧ ∀ b ∈ bs, P b := by
  cases htext with
  | none hgap => exact ⟨[], .none hgap, rfl, by simp⟩
  | some ha hs =>
    obtain ⟨b, hb, rfl, hp⟩ := ha.lift h
    obtain ⟨bs, hbs, rfl, hps⟩ := hs.lift h
    exact ⟨b :: bs, .some hb hbs, rfl, List.forall_mem_cons.2 ⟨hp, hps⟩⟩

end

end CodeIndex.Json

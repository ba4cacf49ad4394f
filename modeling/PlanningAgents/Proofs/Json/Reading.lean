import Mathlib.Data.List.TakeWhile
import PlanningAgents.Json.Reader
import PlanningAgents.Json.Writer

/-!
# PlanningAgents.Proofs.Json.Reading

JSON text that has been written is read back as the value that it was written for.  The reader goes
from one character to the next and keeps what is open on a stack, so there is no function of it that
reads one value.  What is said of a value is therefore said of the whole rest of a text: where the
value may stand, reading its text and what follows is the same as taking the value and reading what
follows (`Json.Reads`).  Scalars have this property each on its own, and a container has it if its
parts have it.

Machine numbers that are not whole have it if they come back from a text of their own
(`Json.ReadsBack`), which depends on how the machine reads numerals.

Main statements:

* `Json.Reads.read_write` — what has the property comes back from its text;
* `Json.reads_null`, `Json.reads_nat`, `Json.reads_float`, `Json.reads_string` — scalars;
* `Json.reads_array`, `Json.reads_object` — containers.
-/

namespace PlanningAgents

namespace Json

open Decimal (Numeral)

variable {machine : Numeral → Option Float} {b b' : Build} {v : Json} {rest : List Char}

/-! ## from one part of a text to the next -/

/-- What has been built once the rest of a text is read. -/
def parse (machine : Numeral → Option Float) (r : Reader) (cs : List Char) : Option Build :=
  (cs.foldlM (step machine) r).bind (finish machine)

theorem parse_nil (machine : Numeral → Option Float) (r : Reader) :
    parse machine r [] = finish machine r := rfl

theorem parse_cons (machine : Numeral → Option Float) (r : Reader) (c : Char) (cs : List Char) :
    parse machine r (c :: cs) = (step machine r c).bind (parse machine · cs) := by
  simp [parse, Option.bind_assoc]

@[simp]
theorem step_between (machine : Numeral → Option Float) (b : Build) (c : Char) :
    step machine ⟨b, .between⟩ c = begin? b c := rfl

theorem read_eq_parse (machine : Numeral → Option Float) (s : String) :
    read machine s = (parse machine {} s.toList).bind Build.done := by
  simp only [read, parse, Option.bind_assoc]
  rfl

/-- What may stand behind a value: nothing, or a mark of the container around it. -/
def Stops : List Char → Prop
  | [] => True
  | c :: _ => c = ',' ∨ c = ']' ∨ c = '\x7d'

theorem stops_nil : Stops [] := trivial

/-- **A value is read as it is written**: where it may stand, it is taken as a part, and what
stands behind it is read. -/
def Reads (machine : Numeral → Option Float) (v : Json) : Prop :=
  ∀ ⦃b b' : Build⦄ ⦃rest : List Char⦄, b.give v = some b' → Stops rest →
    parse machine ⟨b, .between⟩ ((write v).toList ++ rest) = parse machine ⟨b', .between⟩ rest

/-- What is read as it is written comes back if it is all of a text. -/
theorem Reads.read_write (h : Reads machine v) : read machine (write v) = some v := by
  have hgive : ({} : Build).give v = some { expect := .nothing, done := some v } := rfl
  have hparse := h hgive stops_nil
  rw [List.append_nil] at hparse
  rw [read_eq_parse, hparse]
  rfl

/-! ## words and numbers -/

/-- Where a scalar has no mark at its end, it ends with what stops it. -/
theorem parse_of_step {r : Reader}
    (hstep : ∀ c, Stops [c] → step machine r c = (finish machine r).bind (begin? · c))
    (hrest : Stops rest) :
    parse machine r rest = (finish machine r).bind fun b => parse machine ⟨b, .between⟩ rest := by
  cases rest with
  | nil => simp [parse_nil, finish]
  | cons c cs => simp only [parse_cons, hstep c hrest, Option.bind_assoc, step_between]

theorem parse_null (hrest : Stops rest) : parse machine ⟨b, .between⟩ ("null".toList ++ rest) =
    (b.give .null).bind fun b => parse machine ⟨b, .between⟩ rest := by
  have hword : parse machine ⟨b, .between⟩ ("null".toList ++ rest) =
      parse machine ⟨b, .word ['l', 'l', 'u', 'n']⟩ rest := by
    simp [parse_cons, step, begin?]
  rw [hword, parse_of_step _ hrest]
  · simp [finish, ofWord]
  · rintro c (rfl | rfl | rfl) <;> simp [step]

theorem reads_null : Reads machine .null := by
  intro b b' rest hgive hrest
  rw [write, parse_null hrest, hgive, Option.bind_some]

/-- The characters that a number is made of. -/
structure NumberText (cs : List Char) : Prop where
  head : ∃ c ∈ cs.head?, c = '-' ∨ c.isDigit = true
  all : ∀ c ∈ cs, continuesNumber c = true

theorem parse_continuesNumber {cs : List Char} (h : ∀ c ∈ cs, continuesNumber c = true)
    (read : List Char) : parse machine ⟨b, .number read⟩ (cs ++ rest) =
      parse machine ⟨b, .number (cs.reverse ++ read)⟩ rest := by
  induction cs generalizing read with
  | nil => rfl
  | cons c cs ih =>
      rw [List.forall_mem_cons] at h
      rw [List.cons_append, parse_cons]
      simp [step, h.1, ih h.2]

/-- A number ends with what stops it. -/
theorem parse_number {cs : List Char} (h : NumberText cs) (hrest : Stops rest) :
    parse machine ⟨b, .between⟩ (cs ++ rest) =
      ((numeral? cs).bind fun p => b.give (ofNumeral machine p.1 p.2)).bind fun b =>
        parse machine ⟨b, .between⟩ rest := by
  obtain ⟨⟨c, hhead, hc⟩, hall⟩ := h
  obtain ⟨cs, rfl⟩ : ∃ ds, cs = c :: ds := by
    cases cs with
    | nil => simp at hhead
    | cons d ds => simp at hhead; simp [hhead]
  rw [List.forall_mem_cons] at hall
  have hbegin : begin? b c = some ⟨b, .number [c]⟩ := by
    rcases hc with rfl | hdigit
    · rfl
    · have hne : ∀ d : Char, d.isDigit = false → c ≠ d := by
        rintro d hd rfl
        simp [hd] at hdigit
      simp [begin?, hne, hdigit]
  rw [List.cons_append, parse_cons, step_between, hbegin, Option.bind_some,
    parse_continuesNumber hall.2, parse_of_step _ hrest]
  · simp [finish]
  · rintro c (rfl | rfl | rfl) <;> simp [step, continuesNumber]

theorem isDigit_toDigits (n : Nat) : ∀ c ∈ Nat.toDigits 10 n, c.isDigit = true := fun _ =>
  Nat.isDigit_of_mem_toDigits (by decide) (by decide)

/-- No number is written with zeros in front of it. -/
theorem head?_toDigits {n : Nat} (h : 0 < n) : (Nat.toDigits 10 n).head? ≠ some '0' := by
  induction n using Nat.strongRecOn with
  | ind n ih =>
      rw [Nat.toDigits_eq_if (by decide)]
      split
      · next hlt =>
          have hdigit : ∀ d : Fin 10, 0 < d.val → d.val.digitChar ≠ '0' := by decide
          simpa using hdigit ⟨n, hlt⟩ h
      · have hhigh := ih (n / 10) (by omega) (by omega)
        rw [List.head?_append]
        cases hdigits : Nat.toDigits 10 (n / 10) with
        | nil => exact absurd hdigits Nat.toDigits_ne_nil
        | cons d ds => simpa [hdigits] using hhigh

/-- The value of a digit. -/
def digitValue (c : Char) : Nat := c.toNat - '0'.toNat

theorem digitsOf_of_forall {cs : List Char} (h : ∀ c ∈ cs, c.isDigit = true) :
    Numeral.digitsOf cs = (cs.map digitValue, []) := by
  have hvalues : cs.filterMap Numeral.digit? = cs.map digitValue := by
    induction cs with
    | nil => rfl
    | cons c cs ih =>
        rw [List.forall_mem_cons] at h
        simp [Numeral.digit?, h.1, ih h.2, digitValue]
  rw [Numeral.digitsOf, List.takeWhile_eq_self_iff.mpr h, List.dropWhile_eq_nil_iff.mpr h, hvalues]

/-- The only number that begins with a zero is written as this one digit. -/
theorem length_toDigits_le_one {n : Nat} {c : Char} (hc : (Nat.toDigits 10 n).head? = some c)
    (hzero : digitValue c = 0) : (Nat.toDigits 10 n).length ≤ 1 := by
  rcases n.eq_zero_or_pos with rfl | hpos
  · decide
  · have hdigit : c.isDigit = true := isDigit_toDigits n c (List.mem_of_head? hc)
    have hlow : 48 ≤ c.toNat := by
      simp only [Char.isDigit, Bool.and_eq_true, decide_eq_true_eq] at hdigit
      exact hdigit.1
    have hc0 : c = '0' := Char.toNat_inj.mp (Nat.le_antisymm (Nat.sub_eq_zero_iff_le.mp hzero) hlow)
    exact absurd (hc0 ▸ hc) (head?_toDigits hpos)

/-- A natural number is read as a numeral that is a whole number. -/
theorem numeral?_toDigits (n : Nat) : ∃ whole, Numeral.ofDigits whole = n ∧
    numeral? (Nat.toDigits 10 n) = some ({ negative := false, whole }, true) := by
  have hdigit := isDigit_toDigits n
  have hminus : ∀ r, Nat.toDigits 10 n = '-' :: r → False := fun r heq => by
    simpa using hdigit '-' (by simp [heq])
  refine ⟨(Nat.toDigits 10 n).map digitValue, ?_, ?_⟩
  · rw [Numeral.ofDigits, List.foldl_map]
    exact Nat.ofDigitChars_eq_foldl.symm.trans Nat.ofDigitChars_ten_toDigits
  · rw [numeral?, digitsOf_of_forall hdigit]
    · have hlead : ∀ c, (Nat.toDigits 10 n).head? = some c → digitValue c = 0 →
          (Nat.toDigits 10 n).length ≤ 1 := fun _ => length_toDigits_le_one
      simpa [Numeral.exponent?] using hlead
    · exact hminus

/-- The characters of a number without a sign in front. -/
structure Unsigned (cs : List Char) : Prop where
  head : ∃ c ∈ cs.head?, c.isDigit = true
  all : ∀ c ∈ cs, continuesNumber c = true

namespace Unsigned

variable {cs ds : List Char}

theorem numberText (h : Unsigned cs) : NumberText cs where
  head := h.head.imp fun _ hc => ⟨hc.1, .inr hc.2⟩
  all := h.all

theorem numberText_minus (h : Unsigned cs) : NumberText ('-' :: cs) where
  head := ⟨'-', rfl, .inl rfl⟩
  all := List.forall_mem_cons.mpr ⟨by decide, h.all⟩

theorem append (h : Unsigned cs) (hds : ∀ c ∈ ds, continuesNumber c = true) :
    Unsigned (cs ++ ds) where
  head := by
    obtain ⟨c, hc, hdigit⟩ := h.head
    exact ⟨c, by simp_all [List.head?_append], hdigit⟩
  all c hc := (List.mem_append.mp hc).elim (h.all c) (hds c)

theorem take (h : Unsigned cs) {n : Nat} (hn : 0 < n) : Unsigned (cs.take n) where
  head := by simpa [List.head?_take, hn.ne'] using h.head
  all c hc := h.all c (List.mem_of_mem_take hc)

end Unsigned

theorem unsigned_toDigits (n : Nat) : Unsigned (Nat.toDigits 10 n) := by
  have hdigit := isDigit_toDigits n
  refine ⟨?_, fun c hc => by simp [continuesNumber, hdigit c hc]⟩
  cases hcs : Nat.toDigits 10 n with
  | nil => exact absurd hcs Nat.toDigits_ne_nil
  | cons c cs => exact ⟨c, rfl, hdigit c (by simp [hcs])⟩

/-- A natural number that is a machine word is read as it is written. -/
theorem reads_nat {n : Nat} (h : n < UInt64.size) : Reads machine (.nat n) := by
  intro b b' rest hgive hrest
  obtain ⟨whole, hwhole, hnumeral⟩ := numeral?_toDigits n
  have hvalue : ofNumeral machine { negative := false, whole } true = .nat n := by
    have hlow : Int64.minValue.toInt ≤ n := Int.le_trans (by decide) (Int.natCast_nonneg n)
    have hhigh : (n : Int) < UInt64.size := by exact_mod_cast h
    simp only [ofNumeral, hwhole, Bool.false_and, Bool.false_eq_true, if_false, Bool.not_false,
      Bool.and_true, hlow, hhigh, decide_true, if_true]
    rfl
  have hwrite : (write (.nat n)).toList = Nat.toDigits 10 n := by
    rw [nat, write, Int.toString_eq_repr, Int.repr_eq_if, if_pos (by omega), Int.toNat_natCast,
      Nat.toList_repr]
  rw [hwrite, parse_number (unsigned_toDigits n).numberText hrest, hnumeral]
  simp [hvalue, hgive]

theorem toList_zeros (n : Nat) : (Decimal.zeros n).toList = List.replicate n '0' := by
  rw [Decimal.zeros, String.pushn_eq_repeat_push]
  induction n with
  | zero => rfl
  | succ n ih => rw [Nat.repeat, String.toList_push, ih, List.replicate_succ']

theorem continuesNumber_of_mem_zeros {n : Nat} : ∀ c ∈ (Decimal.zeros n).toList,
    continuesNumber c = true := by
  rw [toList_zeros]
  rintro c hc
  rw [List.eq_of_mem_replicate hc]
  decide

theorem continuesNumber_of_mem_toString (i : Int) : ∀ c ∈ (toString i).toList,
    continuesNumber c = true := by
  rw [Int.toString_eq_repr, Int.repr_eq_if]
  split
  · rw [Nat.toList_repr]
    exact (unsigned_toDigits _).all
  · rw [String.toList_append, Nat.toList_repr]
    exact (unsigned_toDigits _).numberText_minus.all

/-- However a numeral is laid out, it begins with a digit. -/
theorem unsigned_layout (s : Decimal.Scaled) : Unsigned (Decimal.Style.data.layout s).toList := by
  have hdigits : Unsigned (toString s.digits).toList := by
    rw [Nat.toString_eq_repr, Nat.toList_repr]
    exact unsigned_toDigits s.digits
  unfold Decimal.Style.layout
  extract_lets ds point exponent
  have hexponent : ∀ c ∈ ("e" ++ exponent).toList, continuesNumber c = true := by
    have hplus : ∀ c ∈ (if 0 < point then Decimal.Style.data.exponentPlus else "").toList,
        continuesNumber c = true := by
      split <;> exact List.all_eq_true.mp (by decide)
    simp only [String.toList_append, List.forall_mem_append, exponent]
    exact ⟨List.all_eq_true.mp (by decide), hplus, continuesNumber_of_mem_toString _⟩
  split_ifs with hpos hwhole hpoint
  · simp only [String.toList_append]
    exact (hdigits.append continuesNumber_of_mem_zeros).append (List.all_eq_true.mp (by decide))
  · simp only [String.toList_append, String.toList_ofList]
    exact ((hdigits.take (by omega)).append (List.all_eq_true.mp (by decide))).append fun c hc =>
      hdigits.all c (List.mem_of_mem_drop hc)
  · simp only [String.toList_append]
    have hzero : Unsigned "0.".toList := ⟨⟨'0', rfl, rfl⟩, List.all_eq_true.mp (by decide)⟩
    exact (hzero.append continuesNumber_of_mem_zeros).append hdigits.all
  · change Unsigned ds.toList at hdigits
    split
    · next hnone => simpa [hnone] using hdigits.head
    · next d hone =>
        rw [String.append_assoc, String.toList_append, String.toList_ofList, ← hone]
        exact hdigits.append hexponent
    · next d rest _ hmore =>
        rw [hmore] at hdigits
        have hpoint : Unsigned (d :: '.' :: rest) :=
          ⟨hdigits.head, by simpa [continuesNumber] using hdigits.all⟩
        rw [String.append_assoc, String.toList_append, String.toList_ofList]
        exact hpoint.append hexponent

/-- A machine number that has a text is written as a number. -/
theorem numberText_write {x : Float} (h : write (.float x) ≠ "null") :
    NumberText (write (.float x)).toList := by
  rw [write] at h ⊢
  have hsigned (negative : Bool) {s : String} (hs : Unsigned s.toList) :
      NumberText (Decimal.signed negative s).toList := by
    cases negative with
    | false => exact hs.numberText
    | true =>
      rw [Decimal.signed, if_pos rfl, String.toList_append]
      exact hs.numberText_minus
  cases hx : Decimal.ofFloat x with
  | nan => exact absurd (by rw [hx]; rfl) h
  | infinite negative => exact absurd (by rw [hx]; cases negative <;> rfl) h
  | finite negative mantissa exponent atBoundary =>
      rw [Decimal.Style.write]
      split
      · exact hsigned negative ⟨⟨'0', rfl, rfl⟩, List.all_eq_true.mp (by decide)⟩
      · exact hsigned negative (unsigned_layout _)

/-- A machine number comes back from a text of its own. -/
def ReadsBack (machine : Numeral → Option Float) (x : Float) : Prop :=
  read machine (write (.float x)) = some (.float x)

/-- The machine number that a value is. -/
def float? : Json → Option Float
  | .float x => some x
  | _ => none

instance (machine : Numeral → Option Float) (x : Float) : Decidable (ReadsBack machine x) :=
  decidable_of_iff ((read machine (write (.float x))).bind float? = some x) <| by
    rw [ReadsBack, Option.bind_eq_some_iff]
    constructor
    · rintro ⟨v, hread, hv⟩
      cases v <;> cases hv
      exact hread
    · exact fun h => ⟨_, h, rfl⟩

/-- A machine number that comes back from a text of its own is read wherever it is written. -/
theorem reads_float {x : Float} (h : ReadsBack machine x) : Reads machine (.float x) := by
  intro b b' rest hgive hrest
  rw [ReadsBack] at h
  have hnull : read machine "null" = some .null := by
    rw [read_eq_parse, ← List.append_nil "null".toList, parse_null stops_nil]
    rfl
  have htext : NumberText (write (.float x)).toList :=
    numberText_write fun heq => by simp [heq, hnull] at h
  obtain ⟨n, isWhole, hnumeral, hvalue⟩ : ∃ n isWhole,
      numeral? (write (.float x)).toList = some (n, isWhole) ∧
        ofNumeral machine n isWhole = .float x := by
    rw [read_eq_parse, ← List.append_nil (write (.float x)).toList,
      parse_number htext stops_nil] at h
    cases hn : numeral? (write (.float x)).toList with
    | none => simp [hn] at h
    | some p =>
        refine ⟨p.1, p.2, rfl, ?_⟩
        simpa [hn, Build.give, parse_nil, finish] using h
  rw [parse_number htext hrest, hnumeral]
  simp [hvalue, hgive]

/-! ## texts -/

theorem hexDigit?_hexDigit {n : Nat} (h : n < 16) : Text.hexDigit? (hexDigit n) = some n := by
  have hall : ∀ n : Fin 16, Text.hexDigit? (hexDigit n) = some n.val := by decide
  exact hall ⟨n, h⟩

/-- A character is read as it is written. -/
theorem parse_escapeChar (units : List Nat) (c : Char) (rest : List Char) :
    parse machine ⟨b, .text units⟩ (escapeChar c ++ rest) =
      parse machine ⟨b, .text (c.toNat :: units)⟩ rest := by
  unfold escapeChar
  split_ifs with hquote hn hr ht hb hf hcontrol
  · obtain rfl | rfl := by simpa using hquote
    all_goals simp [parse_cons, step, escape?]
  · simp [parse_cons, step, escape?, hn]
  · simp [parse_cons, step, escape?, hr]
  · simp [parse_cons, step, escape?, ht]
  · simp [parse_cons, step, escape?, hb]
  · simp [parse_cons, step, escape?, hf]
  · have hzero : Text.hexDigit? '0' = some 0 := by decide
    have hhigh : Text.hexDigit? (hexDigit (c.toNat / 16)) = some (c.toNat / 16) :=
      hexDigit?_hexDigit (by omega)
    have hlow : Text.hexDigit? (hexDigit (c.toNat % 16)) = some (c.toNat % 16) :=
      hexDigit?_hexDigit (by omega)
    simp [parse_cons, step, hzero, hhigh, hlow, Nat.div_add_mod]
  · simp only [Bool.or_eq_true, decide_eq_true_eq, not_or] at hquote
    simp [parse_cons, step, hquote, hcontrol]

theorem parse_flatMap_escapeChar (units : List Nat) (cs : List Char) (rest : List Char) :
    parse machine ⟨b, .text units⟩ (cs.flatMap escapeChar ++ rest) =
      parse machine ⟨b, .text ((cs.map Char.toNat).reverse ++ units)⟩ rest := by
  induction cs generalizing units with
  | nil => rfl
  | cons c cs ih =>
      rw [List.flatMap_cons, List.append_assoc, parse_escapeChar, ih]
      simp

/-- No character is half of a surrogate pair. -/
theorem ofUnits_map_toNat (cs : List Char) : ofUnits (cs.map Char.toNat) = some cs := by
  induction cs with
  | nil => rfl
  | cons c cs ih =>
      have hvalid : c.toNat < 0xD800 ∨ 0xDFFF < c.toNat := by
        rcases c.valid with h | h
        · exact .inl h
        · exact .inr h.1
      rw [List.map_cons, ofUnits.eq_def]
      simp [ih, show ¬(0xD800 ≤ c.toNat ∧ c.toNat < 0xDC00) by omega,
        show ¬(0xDC00 ≤ c.toNat ∧ c.toNat < 0xE000) by omega]

/-- A text is read as it is written, whether it is a name or a value. -/
theorem parse_writeString (s : String) (rest : List Char) :
    parse machine ⟨b, .between⟩ ((writeString s).toList ++ rest) =
      (b.giveText (some s)).bind fun b => parse machine ⟨b, .between⟩ rest := by
  have hopen : begin? b '"' = some ⟨b, .text []⟩ := rfl
  have hclose : step machine ⟨b, .text ((s.toList.map Char.toNat).reverse ++ [])⟩ '"' =
      (b.giveText (some s)).map (⟨·, .between⟩) := by
    simp [step, ofUnits_map_toNat]
  rw [writeString, String.toList_ofList, List.cons_append, List.cons_append, List.append_assoc,
    parse_cons, step_between, hopen, Option.bind_some, parse_flatMap_escapeChar,
    List.singleton_append, parse_cons, hclose, Option.bind_map]
  rfl

theorem reads_string (s : String) : Reads machine (.string s) := by
  intro b b' rest hgive hrest
  have htext : b.giveText (some s) = some b' := by
    rw [Build.giveText]
    split <;> grind [Build.give]
  rw [write, parse_writeString, htext, Option.bind_some]

/-! ## containers -/

/-- Where a value can be taken, a container can be opened, and it is taken when it is closed. -/
theorem expect_of_give {stack : List Frame} {expect : Expect} {done : Option Json}
    (h : Build.give ⟨stack, expect, done⟩ v = some b') :
    (expect = .value ∨ expect = .valueOrEnd) ∧ Build.give ⟨stack, .value, done⟩ v = some b' := by
  unfold Build.give at h
  split at h
  all_goals simp_all [Build.give]

theorem intercalate_comma_cons (cs : List Char) (l : List (List Char)) :
    [','].intercalate (cs :: l) = cs ++ l.flatMap fun ds => ',' :: ds := by
  induction l generalizing cs with
  | nil => simp
  | cons ds l ih => rw [List.intercalate_cons_cons, ih]; simp

/-- What stands behind the first part of a container is another part or the end. -/
theorem stops_flatMap {α : Type} {c : Char} (text : α → List Char) (parts : List α)
    (rest : List Char) (hc : Stops [c]) :
    Stops (parts.flatMap (fun a => ',' :: text a) ++ c :: rest) := by
  cases parts with
  | nil => exact hc
  | cons a parts => exact .inl rfl

theorem writeItems_eq_map (items : List Json) : writeItems items = items.map write := by
  induction items with
  | nil => rfl
  | cons v items ih => rw [writeItems, ih, List.map_cons]

/-- Items behind the first one are taken one after the other, up to the end of the array. -/
theorem parse_items {items : List Json} (hitems : ∀ v ∈ items, Reads machine v)
    (read : List Json) (st : List Frame) (done : Option Json) (rest : List Char) :
    parse machine ⟨⟨.array read :: st, .commaOrEnd, done⟩, .between⟩
        (items.flatMap (fun v => ',' :: (write v).toList) ++ ']' :: rest) =
      (Build.give ⟨st, .value, done⟩ (.array (read.reverse ++ items))).bind fun b =>
        parse machine ⟨b, .between⟩ rest := by
  induction items generalizing read with
  | nil =>
      have hclose : begin? ⟨.array read :: st, .commaOrEnd, done⟩ ']' =
          (Build.give ⟨st, .value, done⟩ (.array read.reverse)).map (⟨·, .between⟩) := rfl
      rw [List.flatMap_nil, List.nil_append, parse_cons, step_between, hclose, Option.bind_map,
        List.append_nil]
      rfl
  | cons v items ih =>
      rw [List.forall_mem_cons] at hitems
      have hcomma : begin? ⟨.array read :: st, .commaOrEnd, done⟩ ',' =
          some ⟨⟨.array read :: st, .value, done⟩, .between⟩ := rfl
      have hstop := stops_flatMap (fun v => (write v).toList) items rest (.inr (.inl rfl))
      rw [List.flatMap_cons, List.append_assoc, List.cons_append, parse_cons, step_between, hcomma,
        Option.bind_some, hitems.1 rfl hstop, ih hitems.2]
      simp

/-- An array is read as it is written if its items are. -/
theorem reads_array {items : List Json} (h : ∀ v ∈ items, Reads machine v) :
    Reads machine (.array items) := by
  rintro ⟨stack, expect, done⟩ b' rest hgive -
  obtain ⟨hexpect, hvalue⟩ := expect_of_give hgive
  have hopen : begin? ⟨stack, expect, done⟩ '[' =
      some ⟨⟨.array [] :: stack, .valueOrEnd, done⟩, .between⟩ := by
    rcases hexpect with rfl | rfl <;> rfl
  rw [write, writeItems_eq_map]
  cases items with
  | nil =>
      have hend : begin? ⟨.array [] :: stack, .valueOrEnd, done⟩ ']' = some ⟨b', .between⟩ := by
        simpa [begin?, Build.mark, Build.close] using hvalue
      simp [parse_cons, hopen, hend]
  | cons v items =>
      rw [List.forall_mem_cons] at h
      have hstop := stops_flatMap (fun v => (write v).toList) items rest (.inr (.inl rfl))
      have htext : ("[" ++ ",".intercalate ((v :: items).map write) ++ "]").toList ++ rest =
          '[' :: ((write v).toList ++
            (items.flatMap (fun v => ',' :: (write v).toList) ++ ']' :: rest)) := by
        simp [intercalate_comma_cons, List.flatMap_map]
      rw [htext, parse_cons, step_between, hopen, Option.bind_some, h.1 rfl hstop,
        parse_items h.2]
      simp [hvalue]

/-- The text of a member of an object. -/
def memberText (m : String × Json) : List Char :=
  (writeString m.1).toList ++ ':' :: (write m.2).toList

/-- A member is taken where its name may stand. -/
theorem parse_member {m : String × Json} (h : Reads machine m.2) (read : List (String × Json))
    (name : String) (st : List Frame) (done : Option Json) {expect : Expect}
    (hexpect : expect = .name ∨ expect = .nameOrEnd) (hrest : Stops rest) :
    parse machine ⟨⟨.object read name true :: st, expect, done⟩, .between⟩
        (memberText m ++ rest) =
      parse machine ⟨⟨.object (m :: read) m.1 true :: st, .commaOrEnd, done⟩, .between⟩ rest := by
  have hname : Build.giveText ⟨.object read name true :: st, expect, done⟩ (some m.1) =
      some ⟨.object read m.1 true :: st, .colon, done⟩ := by
    rcases hexpect with rfl | rfl <;> rfl
  have hcolon : begin? ⟨.object read m.1 true :: st, .colon, done⟩ ':' =
      some ⟨⟨.object read m.1 true :: st, .value, done⟩, .between⟩ := rfl
  rw [memberText, List.append_assoc, parse_writeString, hname, Option.bind_some, List.cons_append,
    parse_cons, step_between, hcolon, Option.bind_some, h rfl hrest]

/-- Members behind the first one are taken one after the other, up to the end of the object. -/
theorem parse_members {members : List (String × Json)} (h : ∀ m ∈ members, Reads machine m.2)
    (read : List (String × Json)) (name : String) (st : List Frame) (done : Option Json)
    (rest : List Char) :
    parse machine ⟨⟨.object read name true :: st, .commaOrEnd, done⟩, .between⟩
        (members.flatMap (fun m => ',' :: memberText m) ++ '\x7d' :: rest) =
      (Build.give ⟨st, .value, done⟩ (.object (read.reverse ++ members))).bind fun b =>
        parse machine ⟨b, .between⟩ rest := by
  induction members generalizing read name with
  | nil =>
      have hclose : begin? ⟨.object read name true :: st, .commaOrEnd, done⟩ '\x7d' =
          (Build.give ⟨st, .value, done⟩ (.object read.reverse)).map (⟨·, .between⟩) := rfl
      rw [List.flatMap_nil, List.nil_append, parse_cons, step_between, hclose, Option.bind_map,
        List.append_nil]
      rfl
  | cons m members ih =>
      rw [List.forall_mem_cons] at h
      have hcomma : begin? ⟨.object read name true :: st, .commaOrEnd, done⟩ ',' =
          some ⟨⟨.object read name true :: st, .name, done⟩, .between⟩ := rfl
      have hstop := stops_flatMap memberText members rest (.inr (.inr rfl))
      rw [List.flatMap_cons, List.append_assoc, List.cons_append, parse_cons, step_between, hcomma,
        Option.bind_some, parse_member h.1 read name st done (.inl rfl) hstop, ih h.2]
      simp

theorem writeMembers_eq_map (members : List (String × Json)) :
    writeMembers members = members.map fun m => writeString m.1 ++ ":" ++ write m.2 := by
  induction members with
  | nil => rfl
  | cons m members ih => rw [writeMembers, ih, List.map_cons]

/-- An object is read as it is written if its members are. -/
theorem reads_object {members : List (String × Json)} (h : ∀ m ∈ members, Reads machine m.2) :
    Reads machine (.object members) := by
  rintro ⟨stack, expect, done⟩ b' rest hgive -
  obtain ⟨hexpect, hvalue⟩ := expect_of_give hgive
  have hopen : begin? ⟨stack, expect, done⟩ '\x7b' =
      some ⟨⟨.object [] "" true :: stack, .nameOrEnd, done⟩, .between⟩ := by
    rcases hexpect with rfl | rfl <;> rfl
  rw [write, writeMembers_eq_map]
  cases members with
  | nil =>
      have hend : begin? ⟨.object [] "" true :: stack, .nameOrEnd, done⟩ '\x7d' =
          some ⟨b', .between⟩ := by
        simpa [begin?, Build.mark, Build.close] using hvalue
      simp [parse_cons, hopen, hend]
  | cons m members =>
      rw [List.forall_mem_cons] at h
      have hstop := stops_flatMap memberText members rest (.inr (.inr rfl))
      have htext : ("\x7b" ++ ",".intercalate ((m :: members).map fun m =>
          writeString m.1 ++ ":" ++ write m.2) ++ "\x7d").toList ++ rest =
          '\x7b' :: (memberText m ++
            (members.flatMap (fun m => ',' :: memberText m) ++ '\x7d' :: rest)) := by
        simp [intercalate_comma_cons, List.flatMap_map, memberText]
      rw [htext, parse_cons, step_between, hopen, Option.bind_some,
        parse_member h.1 [] "" stack done (.inr rfl) hstop, parse_members h.2]
      simp [hvalue]

end Json

end PlanningAgents

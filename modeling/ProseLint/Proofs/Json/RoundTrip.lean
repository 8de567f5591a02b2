import ProseLint.Json.Printer
import ProseLint.Json.Reader
import ProseLint.Proofs.Json.Fields
import ProseLint.Proofs.Number.Decimal

/-! What is written is read back. Reading takes exactly what was written for a value and stops
at whatever ends it, so a value inside lists and objects is read as it is on its own. -/

namespace ProseLint.Json

/-- What can follow a value in a written form: nothing, or what goes on or closes what the
value is in. No number goes on with any of these. -/
def Ends (rest : Text) : Prop :=
  ∀ c, rest.head? = some c → c = ',' ∨ c = ']' ∨ c = '\x7d' ∨ c = '\n'

/-! ## Texts -/

theorem hexValue?_hexDigit {d : Nat} (h : d < 16) : hexValue? (hexDigit d) = some d := by
  have hAll : ∀ d < 16, hexValue? (hexDigit d) = some d := by decide
  exact hAll d h

theorem hex4?_hex4 {n : Nat} (h : n < 65536) (rest : Text) :
    hex4? (hex4 n ++ rest) = some (n, rest) := by
  have hSum : ((n / 4096 % 16 * 16 + n / 256 % 16) * 16 + n / 16 % 16) * 16 + n % 16 = n := by
    omega
  simp only [hex4, List.cons_append, List.nil_append, hex4?,
    hexValue?_hexDigit (Nat.mod_lt _ (by decide : 0 < 16)), hSum]

/-- An escape below the surrogates names its character, whatever follows. -/
theorem unicodeEscape?_hex4 {n : Nat} (h : n < 0xD800) (rest : Text) :
    unicodeEscape? (hex4 n ++ rest) = some (Char.ofNat n, rest) := by
  have hChar : charOf n = Char.ofNat n := if_neg (by omega)
  rw [unicodeEscape?, hex4?_hex4 (by omega)]
  simp only [hChar]
  split
  · split
    · rw [if_neg (by omega)]
    · rfl
  · rfl

/-- One step of reading reads back one character. -/
theorem stringBody_escapeChar (fuel : Nat) (c : Char) (rest : Text) :
    stringBody (fuel + 1) (escapeChar c ++ rest) =
      (stringBody fuel rest).map fun r => (c :: r.1, r.2) := by
  have hCode : ∀ n, c.toNat = n → c = Char.ofNat n := fun n h => by rw [← h, Char.ofNat_toNat]
  by_cases hQuote : c = '"'
  · subst hQuote
    rfl
  by_cases hBackslash : c = '\\'
  · subst hBackslash
    rfl
  by_cases hFeed : c = '\n'
  · subst hFeed
    rfl
  by_cases hReturn : c = '\r'
  · subst hReturn
    rfl
  by_cases hTab : c = '\t'
  · subst hTab
    rfl
  by_cases hBackspace : c.toNat = 8
  · rw [hCode 8 hBackspace]
    rfl
  by_cases hForm : c.toNat = 12
  · rw [hCode 12 hForm]
    rfl
  simp only [escapeChar, hQuote, hBackslash, hFeed, hReturn, hTab, hBackspace, hForm, if_false]
  split
  · next hControl =>
      have hRead := unicodeEscape?_hex4 (show c.toNat < 0xD800 by omega) rest
      rw [Char.ofNat_toNat] at hRead
      simp [stringBody, hRead]
  · next hPlain =>
      simp [stringBody, hQuote, hBackslash, hPlain]

theorem stringBody_quote (fuel : Nat) (t rest : Text) (hFuel : t.length < fuel) :
    stringBody fuel (t.flatMap escapeChar ++ '"' :: rest) = some (t, rest) := by
  induction t generalizing fuel with
  | nil =>
      obtain ⟨f, rfl⟩ := Nat.exists_eq_succ_of_ne_zero (Nat.ne_zero_of_lt hFuel)
      simp [stringBody]
  | cons c t ih =>
      obtain ⟨f, rfl⟩ := Nat.exists_eq_succ_of_ne_zero (Nat.ne_zero_of_lt hFuel)
      rw [List.flatMap_cons, List.append_assoc, stringBody_escapeChar,
        ih f (by simpa using hFuel)]
      rfl

theorem escapeChar_ne_nil (c : Char) : escapeChar c ≠ [] := by
  unfold escapeChar
  repeat' split
  all_goals exact List.cons_ne_nil _ _

theorem length_le_flatMap_escapeChar (t : Text) : t.length ≤ (t.flatMap escapeChar).length := by
  induction t with
  | nil => exact Nat.le_refl _
  | cons c t ih =>
      have hPos := List.length_pos_iff.mpr (escapeChar_ne_nil c)
      rw [List.flatMap_cons, List.length_append, List.length_cons]
      omega

/-- The rest of a quoted text. Reading is given one step for each character that is left. -/
theorem stringBody_rest (t rest : Text) :
    stringBody (t.flatMap escapeChar ++ '"' :: rest).length.succ
      (t.flatMap escapeChar ++ '"' :: rest) = some (t, rest) := by
  have hLe := length_le_flatMap_escapeChar t
  refine stringBody_quote _ t rest ?_
  rw [List.length_append, List.length_cons]
  omega

/-! ## Numbers and names -/

namespace Ends

variable {rest : Text}

theorem digitSpan (h : Ends rest) : Json.digitSpan rest = ([], rest) := by
  cases rest with
  | nil => rfl
  | cons c t => rcases h c rfl with rfl | rfl | rfl | rfl <;> rfl

theorem fractionSpan (h : Ends rest) : Json.fractionSpan rest = ([], rest) := by
  cases rest with
  | nil => rfl
  | cons c t => rcases h c rfl with rfl | rfl | rfl | rfl <;> rfl

theorem exponentSpan (h : Ends rest) : Json.exponentSpan rest = (none, rest) := by
  cases rest with
  | nil => rfl
  | cons c t => rcases h c rfl with rfl | rfl | rfl | rfl <;> rfl

end Ends

/-- Digits are read up to what starts with none. -/
theorem digitSpan_append {t more : Text} (hDigits : ∀ c ∈ t, Decimal.isDigit c = true)
    (hStop : digitSpan more = ([], more)) : digitSpan (t ++ more) = (t, more) := by
  obtain ⟨hNone, hAll⟩ := Prod.mk.inj hStop
  rw [digitSpan, List.takeWhile_append_of_pos hDigits, List.dropWhile_append_of_pos hDigits, hNone,
    hAll, List.append_nil]

theorem digitSpan_digits {more : Text} (hStop : digitSpan more = ([], more)) (n : Nat) :
    digitSpan (Decimal.digits n ++ more) = (Decimal.digits n, more) :=
  digitSpan_append (fun _ => Decimal.isDigit_of_mem_digits) hStop

theorem number?_digits {rest : Text} (hEnds : Ends rest) (negative : Bool) (n : Nat) :
    number? negative (Decimal.digits n ++ rest) =
      some (.int (if negative then -(n : Int) else n), rest) := by
  by_cases hZero : n = 0
  · have hDigits : Decimal.digits n = ['0'] := by
      subst hZero
      rw [Decimal.digits]
      rfl
    rw [hDigits, List.cons_append, List.nil_append, number?]
    simp only [hEnds.fractionSpan, hEnds.exponentSpan, hZero]
    rfl
  · have hSome : (Decimal.digits n).isEmpty = false := by simp [Decimal.digits_ne_nil]
    rw [number?, digitSpan_digits hEnds.digitSpan]
    · simp only [hSome, hEnds.fractionSpan, hEnds.exponentSpan, Decimal.value_digits]
      rfl
    · intro after hIs
      obtain ⟨c, t, hDigits⟩ := List.exists_cons_of_ne_nil (Decimal.digits_ne_nil n)
      have hHead := Decimal.head_digits_ne_zero hZero
      rw [hDigits, List.cons_append] at hIs
      rw [hDigits, List.head?_cons, (List.cons.inj hIs).1] at hHead
      exact hHead rfl

theorem word?_eq_none {word : String} {a c : Char} {t rest : Text} (hWord : word.toList = a :: t)
    (hNe : a ≠ c) : word? word (c :: rest) = none := by
  rw [word?, hWord]
  show (if a == c then List.isPrefixOf? t rest else none) = none
  rw [if_neg (by simpa using hNe)]

/-- A digit starts none of the names that stand for values. -/
theorem scalar?_digit {c : Char} {t : Text} (h : Decimal.isDigit c = true) :
    scalar? (c :: t) = number? false (c :: t) := by
  have hNe : ∀ a, Decimal.isDigit a = false → a ≠ c := by
    rintro a hNot rfl
    rw [h] at hNot
    cases hNot
  have hMinus : c ≠ '-' := (hNe '-' rfl).symm
  have hNull : word? "null" (c :: t) = none := word?_eq_none rfl (hNe 'n' rfl)
  have hTrue : word? "true" (c :: t) = none := word?_eq_none rfl (hNe 't' rfl)
  have hFalse : word? "false" (c :: t) = none := word?_eq_none rfl (hNe 'f' rfl)
  have hNaN : word? "NaN" (c :: t) = none := word?_eq_none rfl (hNe 'N' rfl)
  have hInfinity : word? "Infinity" (c :: t) = none := word?_eq_none rfl (hNe 'I' rfl)
  rw [scalar?]
  · simp only [hNull, hTrue, hFalse, hNaN, hInfinity]
  · intro rest hIs
    exact hMinus (List.cons.inj hIs).1

theorem scalar?_ofInt {rest : Text} (hEnds : Ends rest) (n : Int) :
    scalar? (Decimal.ofInt n ++ rest) = some (.int n, rest) := by
  have hHead : ∀ m, ∃ c t, Decimal.digits m = c :: t ∧ Decimal.isDigit c = true := by
    intro m
    obtain ⟨c, t, hDigits⟩ := List.exists_cons_of_ne_nil (Decimal.digits_ne_nil m)
    exact ⟨c, t, hDigits, Decimal.isDigit_of_mem_digits (hDigits ▸ List.mem_cons_self)⟩
  cases n with
  | ofNat m =>
      obtain ⟨c, t, hDigits, hDigit⟩ := hHead m
      have hNumber := number?_digits hEnds false m
      rw [hDigits, List.cons_append] at hNumber
      rw [Decimal.ofInt, hDigits, List.cons_append, scalar?_digit hDigit, hNumber]
      rfl
  | negSucc m =>
      obtain ⟨c, t, hDigits, hDigit⟩ := hHead (m + 1)
      have hNumber := number?_digits hEnds true (m + 1)
      -- Behind a minus sign there may also be an infinity.
      have hInfinity : word? "Infinity" (Decimal.digits (m + 1) ++ rest) = none := by
        rw [hDigits]
        refine word?_eq_none rfl ?_
        rintro rfl
        cases hDigit
      rw [Decimal.ofInt, List.cons_append, scalar?, hInfinity]
      simp only [hNumber]
      rfl

/-! ## What stands between values -/

theorem skipSpacing_cons {c : Char} (h : isSpacing c = false) (t : Text) :
    skipSpacing (c :: t) = c :: t :=
  List.dropWhile_cons_of_neg (by simp [h])

namespace Layout

theorem skipSpacing_opening (l : Layout) (depth : Nat) (t : Text) :
    skipSpacing (l.opening depth ++ t) = skipSpacing t := by
  cases l with
  | line => rfl
  | block width =>
      refine List.dropWhile_append_of_pos fun c hMem => ?_
      rcases List.mem_cons.mp hMem with rfl | hSpace
      · rfl
      · rw [List.eq_of_mem_replicate hSpace]
        rfl

theorem separator_eq (l : Layout) (depth : Nat) :
    ∃ gap, l.separator depth = ',' :: gap ∧ ∀ t, skipSpacing (gap ++ t) = skipSpacing t := by
  cases l with
  | line => exact ⟨[' '], rfl, fun t => rfl⟩
  | block width => exact ⟨_, rfl, skipSpacing_opening (.block width) depth⟩

theorem ends_opening (l : Layout) (depth : Nat) {c : Char} (h : c = ']' ∨ c = '\x7d') (rest : Text) :
    Ends (l.opening depth ++ c :: rest) := by
  cases l with
  | line =>
      intro d hHead
      cases hHead
      rcases h with rfl | rfl
      · exact Or.inr (Or.inl rfl)
      · exact Or.inr (Or.inr (Or.inl rfl))
  | block width =>
      intro d hHead
      cases hHead
      exact Or.inr (Or.inr (Or.inr rfl))

theorem ends_separator (l : Layout) (depth : Nat) (t : Text) : Ends (l.separator depth ++ t) := by
  obtain ⟨gap, hSeparator, _⟩ := l.separator_eq depth
  intro c hHead
  rw [hSeparator] at hHead
  cases hHead
  exact Or.inl rfl

end Layout

/-! ## Written forms

What is written for a value, and what reading does where a text, a list or an object starts. -/

theorem renderAt_int (l : Layout) (depth : Nat) (n : Int) :
    renderAt l depth (.int n) = Decimal.ofInt n := rfl

theorem renderAt_float (l : Layout) (depth : Nat) (x : Binary64) :
    renderAt l depth (.float x) = x.display "Infinity" "NaN" := rfl

theorem renderAt_str (l : Layout) (depth : Nat) (s : String) :
    renderAt l depth (.str s) = quote s.toList := rfl

theorem renderAt_list_cons (l : Layout) (depth : Nat) (item : Json) (items : List Json) :
    renderAt l depth (.list (item :: items)) =
      '[' :: (l.opening (depth + 1) ++ renderAt l (depth + 1) item ++
        renderItems l (depth + 1) items ++ l.opening depth ++ [']']) := rfl

theorem renderAt_object_cons (l : Layout) (depth : Nat) (field : String × Json)
    (fields : Fields) :
    renderAt l depth (.object (field :: fields)) =
      '\x7b' :: (l.opening (depth + 1) ++ renderField l (depth + 1) field ++
        renderFields l (depth + 1) fields ++ l.opening depth ++ ['\x7d']) := rfl

theorem value?_text (fuel : Nat) (t : Text) : value? (fuel + 1) ('"' :: t) =
    (stringBody t.length.succ t).map fun r => (.str (String.ofList r.1), r.2) := rfl

theorem value?_list (fuel : Nat) (t : Text) : value? (fuel + 1) ('[' :: t) =
    match skipSpacing t with
    | ']' :: after => some (.list [], after)
    | body => (items? fuel body).map fun r => (.list r.1, r.2) := rfl

theorem value?_object (fuel : Nat) (t : Text) : value? (fuel + 1) ('\x7b' :: t) =
    match skipSpacing t with
    | '\x7d' :: after => some (.object [], after)
    | body => (fields? fuel [] body).map fun r => (.object r.1, r.2) := rfl

/-! ## Values -/

/-- No number in the value is a floating-point number, and no object in it has a key twice. -/
inductive IsPlain : Json → Prop where
  | null : IsPlain .null
  | bool (b : Bool) : IsPlain (.bool b)
  | int (n : Int) : IsPlain (.int n)
  | str (s : String) : IsPlain (.str s)
  | list {items : List Json} (each : ∀ v ∈ items, IsPlain v) : IsPlain (.list items)
  | object {fields : Fields} (keys : (fields.map (·.1)).Nodup)
      (each : ∀ f ∈ fields, IsPlain f.2) : IsPlain (.object fields)

/-- The written form of the value starts like a value, and with enough steps the value is read
from it, up to what follows. -/
structure ReadsBack (l : Layout) (v : Json) : Prop where
  starts : ∀ depth, ∃ c t, renderAt l depth v = c :: t ∧ isSpacing c = false ∧ c ≠ ']'
  reads : ∀ depth fuel rest, (renderAt l depth v).length ≤ fuel → Ends rest →
    value? fuel (renderAt l depth v ++ rest) = some (v, rest)

theorem ReadsBack.skipSpacing {l : Layout} {v : Json} (h : ReadsBack l v) (depth : Nat)
    (rest : Text) : skipSpacing (renderAt l depth v ++ rest) = renderAt l depth v ++ rest := by
  obtain ⟨c, t, hStart, hSeen, _⟩ := h.starts depth
  rw [hStart, List.cons_append, skipSpacing_cons hSeen]

theorem items?_renderItems {l : Layout} {item : Json} {items : List Json}
    (h : ∀ v ∈ item :: items, ReadsBack l v) (depth outer fuel : Nat) (rest : Text)
    (hFuel : (renderAt l depth item ++ renderItems l depth items).length < fuel) :
    items? fuel (renderAt l depth item ++
      (renderItems l depth items ++ (l.opening outer ++ ']' :: rest))) =
        some (item :: items, rest) := by
  induction items generalizing item fuel with
  | nil =>
      obtain ⟨f, rfl⟩ := Nat.exists_eq_succ_of_ne_zero (Nat.ne_zero_of_lt hFuel)
      have hItem := (h item List.mem_cons_self).reads depth f (l.opening outer ++ ']' :: rest)
        (by simp [renderItems] at hFuel; omega) (l.ends_opening outer (Or.inl rfl) rest)
      rw [items?, renderItems, List.nil_append, hItem]
      simp only [l.skipSpacing_opening, skipSpacing_cons (show isSpacing ']' = false from rfl)]
  | cons next more ih =>
      obtain ⟨f, rfl⟩ := Nat.exists_eq_succ_of_ne_zero (Nat.ne_zero_of_lt hFuel)
      obtain ⟨gap, hSeparator, hGap⟩ := l.separator_eq depth
      have hLater : ∀ v ∈ next :: more, ReadsBack l v := fun v hMem =>
        h v (List.mem_cons_of_mem item hMem)
      simp only [renderItems, List.length_append, hSeparator, List.length_cons] at hFuel
      have hItem := (h item List.mem_cons_self).reads depth f
        (l.separator depth ++ (renderAt l depth next ++
          (renderItems l depth more ++ (l.opening outer ++ ']' :: rest))))
        (by omega) (l.ends_separator depth _)
      have hRest := ih hLater f (by rw [List.length_append]; omega)
      rw [items?, renderItems, List.append_assoc, List.append_assoc, hItem, hSeparator]
      simp only [List.cons_append, skipSpacing_cons (show isSpacing ',' = false from rfl), hGap,
        (hLater next List.mem_cons_self).skipSpacing, hRest]
      rfl

theorem exists_renderField_cons (l : Layout) (depth : Nat) (field : String × Json) :
    ∃ t, renderField l depth field = '"' :: t := by
  obtain ⟨key, v⟩ := field
  exact ⟨_, rfl⟩

theorem skipSpacing_renderField (l : Layout) (depth : Nat) (field : String × Json) (rest : Text) :
    skipSpacing (renderField l depth field ++ rest) = renderField l depth field ++ rest := by
  obtain ⟨t, hStart⟩ := exists_renderField_cons l depth field
  rw [hStart, List.cons_append, skipSpacing_cons rfl]

/-- A field is read up to the end of its value, and a comma or a brace decides what follows. -/
theorem fields?_renderField {l : Layout} {field : String × Json} (h : ReadsBack l field.2)
    (read : Fields) (depth fuel : Nat) (rest : Text)
    (hFuel : (renderField l depth field).length ≤ fuel) (hEnds : Ends rest) :
    (∀ after, skipSpacing rest = ',' :: after →
      fields? (fuel + 1) read (renderField l depth field ++ rest) =
        fields? fuel (put field.1 field.2 read) (skipSpacing after)) ∧
    ∀ after, skipSpacing rest = '\x7d' :: after →
      fields? (fuel + 1) read (renderField l depth field ++ rest) =
        some (put field.1 field.2 read, after) := by
  obtain ⟨key, v⟩ := field
  simp only at h ⊢
  have hValue := h.reads depth fuel rest
    (by simp only [renderField, List.length_append, List.length_cons] at hFuel; omega) hEnds
  have hText : renderField l depth (key, v) ++ rest =
      '"' :: (key.toList.flatMap escapeChar ++
        '"' :: ':' :: ' ' :: (renderAt l depth v ++ rest)) := by
    simp [renderField, quote]
  have hGap : skipSpacing (' ' :: (renderAt l depth v ++ rest)) = renderAt l depth v ++ rest :=
    h.skipSpacing depth rest
  rw [hText, fields?, stringBody_rest]
  simp only [skipSpacing_cons (show isSpacing ':' = false from rfl), hGap, hValue,
    String.ofList_toList]
  constructor
  · intro after hNext
    simp only [hNext]
  · intro after hNext
    simp only [hNext]

theorem fields?_renderFields {l : Layout} {field : String × Json} {fields : Fields}
    (h : ∀ f ∈ field :: fields, ReadsBack l f.2) (read : Fields)
    (hKeys : ((read ++ field :: fields).map (·.1)).Nodup) (depth outer fuel : Nat) (rest : Text)
    (hFuel : (renderField l depth field ++ renderFields l depth fields).length < fuel) :
    fields? fuel read (renderField l depth field ++
      (renderFields l depth fields ++ (l.opening outer ++ '\x7d' :: rest))) =
        some (read ++ field :: fields, rest) := by
  induction fields generalizing field read fuel with
  | nil =>
      obtain ⟨f, rfl⟩ := Nat.exists_eq_succ_of_ne_zero (Nat.ne_zero_of_lt hFuel)
      have hFresh : field.1 ∉ read.map (·.1) := by
        rw [List.map_append, List.nodup_append] at hKeys
        exact fun hMem => hKeys.2.2 _ hMem field.1 (by simp) rfl
      have hField := fields?_renderField (h field List.mem_cons_self) read depth f
        (l.opening outer ++ '\x7d' :: rest)
        (by simp only [renderFields, List.append_nil] at hFuel; omega)
        (l.ends_opening outer (Or.inr rfl) rest)
      have hNext : skipSpacing (l.opening outer ++ '\x7d' :: rest) = '\x7d' :: rest := by
        rw [l.skipSpacing_opening, skipSpacing_cons rfl]
      rw [renderFields, List.nil_append, hField.2 rest hNext, put_of_not_mem hFresh]
  | cons next more ih =>
      obtain ⟨f, rfl⟩ := Nat.exists_eq_succ_of_ne_zero (Nat.ne_zero_of_lt hFuel)
      obtain ⟨gap, hSeparator, hGap⟩ := l.separator_eq depth
      have hFresh : field.1 ∉ read.map (·.1) := by
        rw [List.map_append, List.nodup_append] at hKeys
        exact fun hMem => hKeys.2.2 _ hMem field.1 (by simp) rfl
      simp only [renderFields, List.length_append, hSeparator, List.length_cons] at hFuel
      have hField := fields?_renderField (h field List.mem_cons_self) read depth f
        (l.separator depth ++ (renderField l depth next ++
          (renderFields l depth more ++ (l.opening outer ++ '\x7d' :: rest))))
        (by omega) (l.ends_separator depth _)
      have hRest := ih (fun g hMem => h g (List.mem_cons_of_mem field hMem))
        (read ++ [(field.1, field.2)]) (by simpa using hKeys) f
        (by rw [List.length_append]; omega)
      have hNext : skipSpacing (l.separator depth ++ (renderField l depth next ++
          (renderFields l depth more ++ (l.opening outer ++ '\x7d' :: rest)))) =
            ',' :: (gap ++ (renderField l depth next ++
              (renderFields l depth more ++ (l.opening outer ++ '\x7d' :: rest)))) := by
        rw [hSeparator, List.cons_append, skipSpacing_cons rfl]
      rw [renderFields, List.append_assoc, List.append_assoc, hField.1 _ hNext, hGap,
        skipSpacing_renderField, put_of_not_mem hFresh, hRest]
      simp

/-- A character that starts no text, list or object starts a number or a name. -/
theorem value?_scalar (fuel : Nat) {c : Char} (t : Text) (hQuote : c ≠ '"') (hList : c ≠ '[')
    (hObject : c ≠ '\x7b') : value? (fuel + 1) (c :: t) = scalar? (c :: t) := by
  rw [value?, if_neg hQuote, if_neg hList, if_neg hObject]

/-- What is written is never empty, so one step is there to read it. -/
theorem exists_fuel {written t : Text} {c : Char} {fuel : Nat} (hText : written = c :: t)
    (hFuel : written.length ≤ fuel) : ∃ f, fuel = f + 1 := by
  refine Nat.exists_eq_succ_of_ne_zero ?_
  rintro rfl
  simp [hText] at hFuel

theorem readsBack_null (l : Layout) : ReadsBack l .null where
  starts := fun depth => ⟨'n', _, rfl, rfl, by decide⟩
  reads := by
    intro depth fuel rest hFuel _
    obtain ⟨f, rfl⟩ := exists_fuel rfl hFuel
    rfl

theorem readsBack_bool (l : Layout) (b : Bool) : ReadsBack l (.bool b) where
  starts := by
    intro depth
    cases b with
    | false => exact ⟨'f', _, rfl, rfl, by decide⟩
    | true => exact ⟨'t', _, rfl, rfl, by decide⟩
  reads := by
    intro depth fuel rest hFuel _
    cases b with
    | false =>
        obtain ⟨f, rfl⟩ := exists_fuel rfl hFuel
        rfl
    | true =>
        obtain ⟨f, rfl⟩ := exists_fuel rfl hFuel
        rfl

/-- The first character of a written number is a minus sign or a digit. -/
theorem exists_ofInt_cons (n : Int) :
    ∃ c t, Decimal.ofInt n = c :: t ∧ (c = '-' ∨ Decimal.isDigit c = true) := by
  cases n with
  | ofNat m =>
      obtain ⟨c, t, hDigits⟩ := List.exists_cons_of_ne_nil (Decimal.digits_ne_nil m)
      exact ⟨c, t, hDigits, Or.inr (Decimal.isDigit_of_mem_digits (hDigits ▸ List.mem_cons_self))⟩
  | negSucc m => exact ⟨'-', _, rfl, Or.inl rfl⟩

theorem readsBack_int (l : Layout) (n : Int) : ReadsBack l (.int n) := by
  obtain ⟨c, t, hText, hStart⟩ := exists_ofInt_cons n
  have hNe : ∀ d, d ≠ '-' → Decimal.isDigit d = false → c ≠ d := by
    rintro d hMinus hDigit rfl
    rcases hStart with hIs | hIs
    · exact hMinus hIs
    · rw [hDigit] at hIs
      cases hIs
  have hSpacing : isSpacing c = false := by
    simp only [isSpacing, Bool.or_eq_false_iff, beq_eq_false_iff_ne]
    exact ⟨⟨⟨hNe _ (by decide) rfl, hNe _ (by decide) rfl⟩, hNe _ (by decide) rfl⟩,
      hNe _ (by decide) rfl⟩
  refine ⟨fun depth => ⟨c, t, hText, hSpacing, hNe _ (by decide) rfl⟩, ?_⟩
  intro depth fuel rest hFuel hEnds
  obtain ⟨f, rfl⟩ := exists_fuel hText hFuel
  have hScalar := scalar?_ofInt hEnds n
  rw [hText, List.cons_append] at hScalar
  rw [renderAt_int, hText, List.cons_append, value?_scalar f _ (hNe _ (by decide) rfl)
    (hNe _ (by decide) rfl) (hNe _ (by decide) rfl), hScalar]

theorem readsBack_str (l : Layout) (s : String) : ReadsBack l (.str s) where
  starts := fun depth => ⟨'"', _, rfl, rfl, by decide⟩
  reads := by
    intro depth fuel rest hFuel _
    have hText : renderAt l depth (.str s) ++ rest =
        '"' :: (s.toList.flatMap escapeChar ++ '"' :: rest) := by
      simp [renderAt_str, quote]
    obtain ⟨f, rfl⟩ := exists_fuel rfl hFuel
    rw [hText, value?_text, stringBody_rest]
    simp

theorem readsBack_list {l : Layout} {items : List Json} (h : ∀ v ∈ items, ReadsBack l v) :
    ReadsBack l (.list items) where
  starts := by
    intro depth
    cases items with
    | nil => exact ⟨'[', _, rfl, rfl, by decide⟩
    | cons item more => exact ⟨'[', _, rfl, rfl, by decide⟩
  reads := by
    intro depth fuel rest hFuel _
    cases items with
    | nil =>
        obtain ⟨f, rfl⟩ := exists_fuel rfl hFuel
        rfl
    | cons item more =>
        simp only [renderAt_list_cons, List.length_cons, List.length_append] at hFuel
        obtain ⟨f, rfl⟩ := Nat.exists_eq_succ_of_ne_zero (Nat.ne_zero_of_lt hFuel)
        have hItems := items?_renderItems h (depth + 1) depth f rest
          (by rw [List.length_append]; omega)
        obtain ⟨c, t, hStart, hSeen, hOpen⟩ := (h item List.mem_cons_self).starts (depth + 1)
        rw [hStart, List.cons_append] at hItems
        have hText : renderAt l depth (.list (item :: more)) ++ rest =
            '[' :: (l.opening (depth + 1) ++ c :: (t ++
              (renderItems l (depth + 1) more ++ (l.opening depth ++ ']' :: rest)))) := by
          simp [renderAt_list_cons, hStart]
        rw [hText, value?_list, l.skipSpacing_opening, skipSpacing_cons hSeen]
        split
        · next after hIs => exact (hOpen (List.cons.inj hIs).1).elim
        · rw [hItems]
          rfl

theorem readsBack_object {l : Layout} {fields : Fields} (hKeys : (fields.map (·.1)).Nodup)
    (h : ∀ f ∈ fields, ReadsBack l f.2) : ReadsBack l (.object fields) where
  starts := by
    intro depth
    cases fields with
    | nil => exact ⟨'\x7b', _, rfl, rfl, by decide⟩
    | cons field more => exact ⟨'\x7b', _, rfl, rfl, by decide⟩
  reads := by
    intro depth fuel rest hFuel _
    cases fields with
    | nil =>
        obtain ⟨f, rfl⟩ := exists_fuel rfl hFuel
        rfl
    | cons field more =>
        simp only [renderAt_object_cons, List.length_cons, List.length_append] at hFuel
        obtain ⟨f, rfl⟩ := Nat.exists_eq_succ_of_ne_zero (Nat.ne_zero_of_lt hFuel)
        have hFields := fields?_renderFields h [] hKeys (depth + 1) depth f rest
          (by rw [List.length_append]; omega)
        have hText : renderAt l depth (.object (field :: more)) ++ rest =
            '\x7b' :: (l.opening (depth + 1) ++ (renderField l (depth + 1) field ++
              (renderFields l (depth + 1) more ++ (l.opening depth ++ '\x7d' :: rest)))) := by
          simp [renderAt_object_cons]
        obtain ⟨t, hStart⟩ := exists_renderField_cons l (depth + 1) field
        rw [hText, value?_object, l.skipSpacing_opening, skipSpacing_renderField]
        split
        · next after hIs =>
            rw [hStart, List.cons_append] at hIs
            exact absurd (List.cons.inj hIs).1 (by decide)
        · rw [hFields]
          rfl

/-! ## Floating-point numbers -/

/-- The written form of the number is read as the number, up to what ends it. -/
def NumberReadsBack (x : Binary64) : Prop :=
  ∀ rest, Ends rest → scalar? (x.display "Infinity" "NaN" ++ rest) = some (.float x, rest)

/-- What is read as a number or a name starts like nothing else that is read. -/
theorem start_of_scalar? {c : Char} {t : Text} {r : Json × Text} (h : scalar? (c :: t) = some r) :
    isSpacing c = false ∧ c ≠ ']' ∧ c ≠ '"' ∧ c ≠ '[' ∧ c ≠ '\x7b' := by
  have hNe : ∀ d ∈ [' ', '\n', '\t', '\r', ']', '"', '[', '\x7b'], c ≠ d := by
    rintro d hMem rfl
    simp only [List.mem_cons, List.not_mem_nil, or_false] at hMem
    rcases hMem with rfl | rfl | rfl | rfl | rfl | rfl | rfl | rfl <;> cases h
  refine ⟨?_, hNe _ (by decide), hNe _ (by decide), hNe _ (by decide), hNe _ (by decide)⟩
  simp [isSpacing, hNe]

theorem NumberReadsBack.readsBack {x : Binary64} (h : NumberReadsBack x) (l : Layout) :
    ReadsBack l (.float x) := by
  obtain ⟨c, t, hText⟩ : ∃ c t, x.display "Infinity" "NaN" = c :: t := by
    refine List.exists_cons_of_ne_nil fun hNone => ?_
    have hRead := h [] (by simp [Ends])
    rw [hNone] at hRead
    cases hRead
  have hStart := h [] (by simp [Ends])
  rw [List.append_nil, hText] at hStart
  obtain ⟨hSeen, hClose, hQuote, hList, hObject⟩ := start_of_scalar? hStart
  refine ⟨fun depth => ⟨c, t, hText, hSeen, hClose⟩, ?_⟩
  intro depth fuel rest hFuel hEnds
  obtain ⟨f, rfl⟩ := exists_fuel hText hFuel
  have hScalar := h rest hEnds
  rw [renderAt_float, hText, List.cons_append] at *
  rw [value?_scalar f _ hQuote hList hObject, hScalar]

/-- A number is read back from its digits when they are those of a whole part, a point and some
more, and stand for the number. -/
theorem numberReadsBack_of_digits {x : Binary64} {n : Nat} {fraction : Text} (hNe : n ≠ 0)
    (hText : x.display "Infinity" "NaN" = Decimal.digits n ++ '.' :: fraction)
    (hSome : fraction ≠ []) (hDigits : ∀ c ∈ fraction, Decimal.isDigit c = true)
    (hValue : Binary64.ofDecimal false (Decimal.value (Decimal.digits n ++ fraction))
      (0 - fraction.length) = x) : NumberReadsBack x := by
  intro rest hEnds
  obtain ⟨c, t, hWhole⟩ := List.exists_cons_of_ne_nil (Decimal.digits_ne_nil n)
  have hDigit : Decimal.isDigit c = true :=
    Decimal.isDigit_of_mem_digits (hWhole ▸ List.mem_cons_self)
  have hFraction : fractionSpan ('.' :: (fraction ++ rest)) = (fraction, rest) := by
    rw [fractionSpan]
    simp only [digitSpan_append hDigits hEnds.digitSpan, List.isEmpty_eq_false_iff.mpr hSome]
    rfl
  have hPoint : digitSpan ('.' :: (fraction ++ rest)) = ([], '.' :: (fraction ++ rest)) := rfl
  have hSpan := digitSpan_digits hPoint n
  have hAll : x.display "Infinity" "NaN" ++ rest = c :: (t ++ '.' :: (fraction ++ rest)) := by
    rw [hText, hWhole]
    simp
  rw [hWhole, List.cons_append] at hSpan
  rw [hAll, scalar?_digit hDigit, number?, hSpan]
  · simp only [hFraction, hEnds.exponentSpan, List.isEmpty_eq_false_iff.mpr hSome, ← hWhole]
    rw [Option.getD_none, hValue, hWhole]
    rfl
  · intro after hIs
    refine Decimal.head_digits_ne_zero hNe ?_
    rw [hWhole, (List.cons.inj hIs).1]
    rfl

/-! ## Values that survive -/

/-- Every floating-point number in the value is read from its written form, and no object in it
has a key twice. -/
inductive Survives : Json → Prop where
  | null : Survives .null
  | bool (b : Bool) : Survives (.bool b)
  | int (n : Int) : Survives (.int n)
  | float {x : Binary64} (back : NumberReadsBack x) : Survives (.float x)
  | str (s : String) : Survives (.str s)
  | list {items : List Json} (each : ∀ v ∈ items, Survives v) : Survives (.list items)
  | object {fields : Fields} (keys : (fields.map (·.1)).Nodup)
      (each : ∀ f ∈ fields, Survives f.2) : Survives (.object fields)

namespace Survives

attribute [simp] Survives.null Survives.bool Survives.int Survives.str

@[simp] theorem list_iff {items : List Json} : Survives (.list items) ↔ ∀ v ∈ items, Survives v :=
  ⟨fun h => by cases h with | list each => exact each, .list⟩

@[simp] theorem object_iff {fields : Fields} :
    Survives (.object fields) ↔ (fields.map (·.1)).Nodup ∧ ∀ f ∈ fields, Survives f.2 :=
  ⟨fun h => by cases h with | object keys each => exact ⟨keys, each⟩, fun h => .object h.1 h.2⟩

end Survives

theorem IsPlain.survives {v : Json} (h : IsPlain v) : Survives v := by
  induction h with
  | null => exact .null
  | bool b => exact .bool b
  | int n => exact .int n
  | str s => exact .str s
  | list _ ih => exact .list ih
  | object keys _ ih => exact .object keys ih

theorem Survives.readsBack {v : Json} (h : Survives v) (l : Layout) : ReadsBack l v := by
  induction h with
  | null => exact readsBack_null l
  | bool b => exact readsBack_bool l b
  | int n => exact readsBack_int l n
  | float back => exact back.readsBack l
  | str s => exact readsBack_str l s
  | list _ ih => exact readsBack_list ih
  | object keys _ ih => exact readsBack_object keys ih

theorem Survives.read?_render {v : Json} (h : Survives v) (l : Layout) :
    read? (render l v) = some v := by
  have hBack := h.readsBack l
  have hValue := hBack.reads 0 ((renderAt l 0 v).length + 1) [] (Nat.le_succ _) (by simp [Ends])
  have hStart := hBack.skipSpacing 0 []
  rw [List.append_nil] at hValue hStart
  rw [read?, render, hStart, hValue]
  rfl

/-- A value without floating-point numbers and repeated keys is read from its written form. -/
theorem read?_render {v : Json} (h : IsPlain v) (l : Layout) : read? (render l v) = some v :=
  h.survives.read?_render l

end ProseLint.Json

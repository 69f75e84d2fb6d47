import ShellLine.Proofs.Json.Reader
import ShellLine.Proofs.Text.Decimal

/-!
# Compact texts are read back

The compact text of a value is read as the value. A value is read in front of whatever
follows it, unless that begins with a digit: behind a number only a comma, a closing bracket
or the end is written. No character below the space stands in a compact text, so it is one
line.
-/

namespace ShellLine.Json

open Text

/-! ## Strings -/

theorem hexDigit?_digitChar : ∀ n < 16, hexDigit? (Nat.digitChar n) = some n := by decide

theorem numbered?_escape {n : Nat} (h : n < 32) (rest : List Char) :
    numbered? ('0' :: '0' :: Nat.digitChar (n / 16) :: Nat.digitChar (n % 16) :: rest) =
      some (Char.ofNat n, rest) := by
  have hzero : hexDigit? '0' = some 0 := by decide
  have hhigh := hexDigit?_digitChar (n / 16) (by omega)
  have hlow := hexDigit?_digitChar (n % 16) (by omega)
  have hunit : n / 16 * 16 + n % 16 = n := Nat.div_add_mod' n 16
  have hsmall : n < 0xD800 := by omega
  simp [numbered?, codeUnit?, hzero, hhigh, hlow, hunit, hsmall]

theorem quoted?_of_escaped? {c : Char} {text behind : List Char}
    (h : escaped? text = some (c, behind)) :
    quoted? ('\\' :: text) = mapRead (c :: ·) (quoted? behind) := by
  rw [quoted?]
  split
  · next hnone =>
    rw [h] at hnone
    cases hnone
  · next hsome =>
    rw [h] at hsome
    cases hsome
    rfl

theorem quoted?_of_plain {c : Char} (hquote : c ≠ '"') (hbackslash : c ≠ '\\')
    (hcontrol : ¬ c.toNat < 32) (text : List Char) :
    quoted? (c :: text) = mapRead (c :: ·) (quoted? text) := by
  rw [quoted?.eq_4 _ _ hquote hbackslash, if_neg hcontrol]

/-- An escaped character is read as the character. -/
theorem quoted?_escape_append (c : Char) (text : List Char) :
    quoted? (escape c ++ text) = mapRead (c :: ·) (quoted? text) := by
  unfold escape
  -- Seven characters are escaped by a letter each.
  iterate 7
    split
    · next h =>
      subst h
      exact quoted?_of_escaped? rfl
  split
  · next hcontrol =>
    have hnumber := numbered?_escape hcontrol text
    rw [Char.ofNat_toNat] at hnumber
    exact quoted?_of_escaped? hnumber
  · next hquote hbackslash _ _ _ _ _ hcontrol =>
    exact quoted?_of_plain hquote hbackslash hcontrol text

theorem quoted?_flatMap_escape (chars rest : List Char) :
    quoted? (chars.flatMap escape ++ '"' :: rest) = some (chars, rest) := by
  induction chars with
  | nil => rw [List.flatMap_nil, List.nil_append, quoted?]
  | cons c chars ih =>
    rw [List.flatMap_cons, List.append_assoc, quoted?_escape_append, ih]
    rfl

/-! ## Numbers -/

/-- No digit begins the text, so a number in front of it ends there. -/
def StopsNumber (text : List Char) : Prop := ∀ c ∈ text.head?, c.isDigit = false

theorem span_digits {digits rest : List Char} (hdigits : ∀ c ∈ digits, c.isDigit = true)
    (hrest : StopsNumber rest) :
    (digits ++ rest).takeWhile Char.isDigit = digits ∧
      (digits ++ rest).dropWhile Char.isDigit = rest := by
  rw [List.takeWhile_append_of_pos hdigits, List.dropWhile_append_of_pos hdigits]
  cases rest with
  | nil => exact ⟨List.append_nil digits, rfl⟩
  | cons c rest =>
    have hc : ¬ c.isDigit = true := Bool.eq_false_iff.1 (hrest c rfl)
    rw [List.takeWhile_cons_of_neg hc, List.dropWhile_cons_of_neg hc]
    exact ⟨List.append_nil digits, rfl⟩

theorem number?_toString (value : Nat) {rest : List Char} (hrest : StopsNumber rest) :
    number? ((toString value).toList ++ rest) = some (value, rest) := by
  obtain ⟨htake, hdrop⟩ := span_digits (fun _ ↦ isDigit_of_mem_toString) hrest
  rw [number?, htake, hdrop, toList_toString]
  split
  · next hnil => exact absurd hnil Nat.toDigits_ne_nil
  · next d digits hzero =>
    by_cases hvalue : value = 0
    · rw [hvalue] at hzero
      cases hzero
    · exact absurd (congrArg List.head? hzero) (head?_toDigits_ne hvalue)
  · rw [Nat.ofDigitChars_ten_toDigits]

/-! ## Lists of items -/

variable {α : Type}

/-- Items with commas between them, each in front of what follows it. -/
def listedThen (write : α → List Char → List Char) : List α → List Char → List Char
  | [], rest => rest
  | [a], rest => write a rest
  | a :: next :: others, rest => write a (',' :: listedThen write (next :: others) rest)

/-- Nothing of an item gets lost in a list. -/
theorem length_le_listedThen {write : α → List Char → List Char}
    (hwrite : ∀ a rest, (write a rest).length = (write a []).length + rest.length)
    {items : List α} {a : α} (ha : a ∈ items) (rest : List Char) :
    (write a []).length ≤ (listedThen write items rest).length := by
  fun_induction listedThen write items rest with
  | case1 => cases ha
  | case2 b rest =>
    obtain rfl := List.mem_singleton.1 ha
    rw [hwrite a rest]
    omega
  | case3 b next others rest ih =>
    rw [hwrite b, List.length_cons]
    obtain rfl | ha := List.mem_cons.1 ha
    · omega
    · have hothers := ih ha
      omega

theorem itemsUpTo_of_close {item : Reader α} {close : Char} {text behind rest : List Char} {a : α}
    (hitem : item.read text = some (a, behind)) (hbehind : skipSpaces behind = close :: rest) :
    itemsUpTo item close text = some ([a], rest) := by
  rw [itemsUpTo]
  split
  · next hnone =>
    rw [hitem] at hnone
    cases hnone
  · next hsome =>
    rw [hitem] at hsome
    cases hsome
    rw [hbehind]
    exact if_pos rfl

theorem itemsUpTo_of_comma {item : Reader α} {close : Char} {text behind rest : List Char} {a : α}
    (hitem : item.read text = some (a, behind)) (hbehind : skipSpaces behind = ',' :: rest)
    (hclose : close ≠ ',') :
    itemsUpTo item close text = mapRead (a :: ·) (itemsUpTo item close rest) := by
  rw [itemsUpTo]
  split
  · next hnone =>
    rw [hitem] at hnone
    cases hnone
  · next hsome =>
    rw [hitem] at hsome
    cases hsome
    rw [hbehind]
    exact if_neg hclose.symm

/-- Items are read back from a list of them when each is, in front of whatever may follow it. -/
theorem itemsUpTo_listedThen {item : Reader α} {write : α → List Char → List Char} {close : Char}
    (hcomma : close ≠ ',') (hspace : isSpace close = false) (hdigit : close.isDigit = false)
    {items : List α} (hitems : items ≠ [])
    (hread : ∀ a ∈ items, ∀ rest, StopsNumber rest → item.read (write a rest) = some (a, rest))
    (rest : List Char) :
    itemsUpTo item close (listedThen write items (close :: rest)) = some (items, rest) := by
  have hbehind : StopsNumber (close :: rest) := fun c hc ↦ Option.mem_some.1 hc ▸ hdigit
  induction items with
  | nil => exact absurd rfl hitems
  | cons a others ih =>
    cases others with
    | nil =>
      have ha := hread a (List.mem_singleton.2 rfl) (close :: rest) hbehind
      exact itemsUpTo_of_close ha (skipSpaces_of_not_isSpace hspace rest)
    | cons next others =>
      have hstop : StopsNumber (',' :: listedThen write (next :: others) (close :: rest)) :=
        fun c hc ↦ Option.mem_some.1 hc ▸ rfl
      have ha := hread a List.mem_cons_self _ hstop
      rw [listedThen, itemsUpTo_of_comma ha (skipSpaces_of_not_isSpace rfl _) hcomma,
        ih (List.cons_ne_nil _ _) fun b hb ↦ hread b (List.mem_cons_of_mem a hb)]
      rfl

/-- A list of items is read back when none of them begins like the end of the list. -/
theorem enclosed_listedThen {item : Reader α} {write : α → List Char → List Char} {close : Char}
    (hcomma : close ≠ ',') (hspace : isSpace close = false) (hdigit : close.isDigit = false)
    {items : List α}
    (hopens : ∀ a ∈ items, ∀ rest,
      ∃ c behind, write a rest = c :: behind ∧ isSpace c = false ∧ c ≠ close)
    (hread : ∀ a ∈ items, ∀ rest, StopsNumber rest → item.read (write a rest) = some (a, rest))
    (rest : List Char) :
    enclosed item close (listedThen write items (close :: rest)) = some (items, rest) := by
  cases items with
  | nil =>
    rw [listedThen, enclosed, skipSpaces_of_not_isSpace hspace]
    exact if_pos rfl
  | cons a others =>
    have hitems := itemsUpTo_listedThen hcomma hspace hdigit (List.cons_ne_nil a others) hread rest
    obtain ⟨c, behind, htext, hc, hne⟩ : ∃ c behind,
        listedThen write (a :: others) (close :: rest) = c :: behind ∧
          isSpace c = false ∧ c ≠ close := by
      cases others <;> exact hopens a List.mem_cons_self _
    rw [htext] at hitems ⊢
    rw [enclosed, skipSpaces_of_not_isSpace hc, ← hitems]
    exact if_neg hne

/-! ## Values -/

theorem length_quoteThen (text : String) (rest : List Char) :
    (quoteThen text rest).length = (quoteThen text []).length + rest.length := by
  rw [← List.length_append, ← quoteThen_append, List.nil_append]

theorem length_compactThen (value : Json) (rest : List Char) :
    (value.compactThen rest).length = (value.compactThen []).length + rest.length := by
  rw [← List.length_append, ← compactThen_append, List.nil_append]

/-- A field as it is written in an object. -/
def fieldThen (field : String × Json) (rest : List Char) : List Char :=
  quoteThen field.1 (':' :: field.2.compactThen rest)

theorem length_fieldThen (field : String × Json) (rest : List Char) :
    (fieldThen field rest).length = (fieldThen field []).length + rest.length := by
  rw [fieldThen, fieldThen, length_quoteThen, length_quoteThen _ (':' :: field.2.compactThen []),
    List.length_cons, List.length_cons, length_compactThen]
  omega

theorem length_compactThen_le_fieldThen (field : String × Json) :
    (field.2.compactThen []).length ≤ (fieldThen field []).length := by
  rw [fieldThen, length_quoteThen, List.length_cons]
  omega

theorem itemsThen_eq_listedThen (items : List Json) (rest : List Char) :
    itemsThen items rest = listedThen compactThen items rest := by
  fun_induction listedThen compactThen items rest with
  | case1 => rw [itemsThen]
  | case2 => rw [itemsThen]
  | case3 _ _ _ _ ih => rw [itemsThen, ih]

theorem fieldsThen_eq_listedThen (fields : List (String × Json)) (rest : List Char) :
    fieldsThen fields rest = listedThen fieldThen fields rest := by
  fun_induction listedThen fieldThen fields rest with
  | case1 => rw [fieldsThen]
  | case2 => rw [fieldsThen, fieldThen]
  | case3 _ _ _ _ ih => rw [fieldsThen, fieldThen, ih]

theorem isSpace_of_isDigit {c : Char} (h : c.isDigit = true) : isSpace c = false := by
  refine Bool.eq_false_iff.2 fun hspace ↦ ?_
  simp only [isSpace, Bool.or_eq_true, beq_iff_eq] at hspace
  obtain ((rfl | rfl) | rfl) | rfl := hspace <;> cases h

theorem readField_fieldThen {value : Reader Json} {field : String × Json} {rest : List Char}
    (hvalue : value.read (field.2.compactThen rest) = some (field.2, rest)) :
    readField value (fieldThen field rest) = some (field, rest) := by
  change (quoted? (field.1.toList.flatMap escape ++ '"' :: (':' :: field.2.compactThen rest))).bind
    _ = some (field, rest)
  rw [quoted?_flatMap_escape]
  change mapRead (String.ofList field.1.toList, ·) (value.read (field.2.compactThen rest)) =
    some (field, rest)
  rw [hvalue, mapRead_some, String.ofList_toList]

/-- A value begins with a character that neither is a space nor ends a list. -/
theorem compactThen_opens (value : Json) (rest : List Char) :
    ∃ c behind, value.compactThen rest = c :: behind ∧ isSpace c = false ∧ c ≠ ']' := by
  cases value with
  | null => exact ⟨'n', _, rfl, by decide, by decide⟩
  | number value =>
    obtain ⟨c, digits, hdigits, hc⟩ := exists_digit_toString value
    refine ⟨c, digits ++ rest, ?_, isSpace_of_isDigit hc, fun h ↦ ?_⟩
    · rw [compactThen, hdigits, List.cons_append]
    · rw [h] at hc
      cases hc
  | string text => exact ⟨'"', _, rfl, by decide, by decide⟩
  | array items => exact ⟨'[', _, rfl, by decide, by decide⟩
  | object fields => exact ⟨'\x7b', _, rfl, by decide, by decide⟩

theorem read_compactThen (value : Json) {depth : Nat}
    (hdepth : (value.compactThen []).length ≤ depth) {rest : List Char} (hrest : StopsNumber rest) :
    (within depth).read (value.compactThen rest) = some (value, rest) := by
  -- The text of a part is shorter by the bracket in front of it, so one depth less is enough.
  induction depth generalizing value rest with
  | zero =>
    obtain ⟨c, behind, htext, -, -⟩ := compactThen_opens value []
    rw [htext] at hdepth
    exact absurd hdepth (Nat.not_succ_le_zero _)
  | succ depth ih =>
    change readValue (within depth) (value.compactThen rest) = some (value, rest)
    cases value with
    | null => rfl
    | number value =>
      have hread := number?_toString value hrest
      obtain ⟨c, digits, hdigits, hc⟩ := exists_digit_toString value
      rw [hdigits, List.cons_append] at hread
      rw [compactThen, hdigits, List.cons_append, readValue,
        skipSpaces_of_not_isSpace (isSpace_of_isDigit hc)]
      split
      case h_5 => rw [hread, mapRead_some]
      -- No other value begins with a digit.
      all_goals
        next h =>
          obtain rfl := (List.cons.inj h).1
          cases hc
    | string text =>
      change mapRead (Json.string ∘ String.ofList) (quoted? _) = _
      rw [quoted?_flatMap_escape, mapRead_some, Function.comp_apply, String.ofList_toList]
    | array items =>
      have hdeep : ∀ item ∈ items, (item.compactThen []).length ≤ depth := by
        intro item hitem
        have hlength := length_le_listedThen length_compactThen hitem [']']
        rw [← itemsThen_eq_listedThen] at hlength
        exact Nat.le_trans hlength (Nat.le_of_succ_le_succ hdepth)
      have hitems : enclosed (within depth) ']' (itemsThen items (']' :: rest)) =
          some (items, rest) := by
        rw [itemsThen_eq_listedThen]
        exact enclosed_listedThen (by decide) (by decide) (by decide)
          (fun item _ ↦ compactThen_opens item)
          (fun item hitem _ hbehind ↦ ih item (hdeep item hitem) hbehind) rest
      exact congrArg (mapRead Json.array) hitems
    | object fields =>
      have hdeep : ∀ field ∈ fields, (field.2.compactThen []).length ≤ depth := by
        intro field hfield
        have hlength := length_le_listedThen length_fieldThen hfield ['\x7d']
        rw [← fieldsThen_eq_listedThen] at hlength
        exact Nat.le_trans (length_compactThen_le_fieldThen field)
          (Nat.le_trans hlength (Nat.le_of_succ_le_succ hdepth))
      have hfields : enclosed (fieldReader (within depth)) '\x7d'
          (fieldsThen fields ('\x7d' :: rest)) = some (fields, rest) := by
        rw [fieldsThen_eq_listedThen]
        exact enclosed_listedThen (by decide) (by decide) (by decide)
          (fun _ _ _ ↦ ⟨'"', _, rfl, by decide, by decide⟩)
          (fun field hfield _ hbehind ↦
            readField_fieldThen (ih field.2 (hdeep field hfield) hbehind)) rest
      exact congrArg (mapRead Json.object) hfields

theorem read?_compact (value : Json) : read? value.compact = some value := by
  have hend : StopsNumber [] := fun _ hc ↦ nomatch hc
  have hread := read_compactThen value (Nat.le_refl _) hend
  rw [read?, compact, String.toList_ofList, hread]
  rfl

/-! ## One line -/

/-- No character of the text comes before the space. -/
def Printable (text : List Char) : Prop := ∀ c ∈ text, 32 ≤ c.toNat

theorem printable_of_all {text : List Char} (h : text.all (32 ≤ ·.toNat) = true) :
    Printable text := fun c hc ↦
  of_decide_eq_true (List.all_eq_true.1 h c hc)

theorem Printable.cons {c : Char} {text : List Char} (hc : 32 ≤ c.toNat) (h : Printable text) :
    Printable (c :: text) :=
  List.forall_mem_cons.2 ⟨hc, h⟩

theorem Printable.append {text other : List Char} (h : Printable text) (hother : Printable other) :
    Printable (text ++ other) :=
  List.forall_mem_append.2 ⟨h, hother⟩

theorem le_toNat_digitChar : ∀ n < 16, 32 ≤ (Nat.digitChar n).toNat := by decide

theorem printable_escape (c : Char) : Printable (escape c) := by
  unfold escape
  iterate 7
    split
    · exact printable_of_all rfl
  split
  · have hhigh := le_toNat_digitChar (c.toNat / 16) (by omega)
    have hlow := le_toNat_digitChar (c.toNat % 16) (by omega)
    have hnumber : Printable ['\\', 'u', '0', '0'] := printable_of_all rfl
    exact hnumber.append (.cons hhigh (.cons hlow (List.forall_mem_nil _)))
  · next hcontrol => exact .cons (Nat.le_of_not_lt hcontrol) (printable_of_all rfl)

theorem printable_quoteThen (text : String) {rest : List Char} (hrest : Printable rest) :
    Printable (quoteThen text rest) := by
  have htext : Printable (text.toList.flatMap escape) := fun c hc ↦ by
    obtain ⟨d, -, hd⟩ := List.mem_flatMap.1 hc
    exact printable_escape d c hd
  exact .cons (by decide) (htext.append (.cons (by decide) hrest))

theorem printable_toString (value : Nat) : Printable (toString value).toList := fun c hc ↦ by
  have hdigit : 48 ≤ c.toNat ∧ c.toNat ≤ 57 := Char.isDigit_iff_toNat.1 (isDigit_of_mem_toString hc)
  omega

mutual

theorem printable_compactThen (value : Json) {rest : List Char} (hrest : Printable rest) :
    Printable (value.compactThen rest) := by
  cases value with
  | null => exact (printable_of_all rfl).append hrest
  | number value =>
    rw [compactThen]
    exact (printable_toString value).append hrest
  | string value => exact printable_quoteThen value hrest
  | array items =>
    rw [compactThen]
    exact .cons (by decide) (printable_itemsThen items (.cons (by decide) hrest))
  | object fields =>
    rw [compactThen]
    exact .cons (by decide) (printable_fieldsThen fields (.cons (by decide) hrest))

theorem printable_itemsThen (items : List Json) {rest : List Char} (hrest : Printable rest) :
    Printable (itemsThen items rest) := by
  match items with
  | [] => exact hrest
  | [item] => exact printable_compactThen item hrest
  | item :: next :: items =>
    rw [itemsThen]
    exact printable_compactThen item (.cons (by decide) (printable_itemsThen (next :: items) hrest))

theorem printable_fieldsThen (fields : List (String × Json)) {rest : List Char}
    (hrest : Printable rest) : Printable (fieldsThen fields rest) := by
  match fields with
  | [] => exact hrest
  | [(key, value)] =>
    rw [fieldsThen]
    exact printable_quoteThen key (.cons (by decide) (printable_compactThen value hrest))
  | (key, value) :: next :: fields =>
    rw [fieldsThen]
    exact printable_quoteThen key (.cons (by decide) (printable_compactThen value
      (.cons (by decide) (printable_fieldsThen (next :: fields) hrest))))

end

theorem printable_compact (value : Json) : Printable value.compact.toList := by
  rw [compact, String.toList_ofList]
  exact printable_compactThen value (List.forall_mem_nil _)

end ShellLine.Json

import LoopStorm.Lib.Text

/-!
# JSON values and their compact text

A JSON document over a type of strings `σ` and a type of numbers `ν`, and the
compact text a serializer writes for it: no white space, members in the order
they are held.

* `Json`, `Json.induction` — the values, with the induction principle that
  hands over the hypothesis for every element and every member.
* `lookup` — the value a key stands for; the last member wins, as it does in
  every parser that fills a map.
* `quote`, `escapeChar` — string literals: the two-character escapes, `\u00XX`
  for the other control characters, everything else as it is.
* `validNumber` — the number grammar; `natText`, `intText` the decimal texts,
  which satisfy it (`validNumber_natText`, `validNumber_intText`).
* `render` — the compact text, for any way to write strings and numbers.
  `printable_render` says it is a single line.
* `not_infix_quote` — no string literal, whatever it holds, can be mistaken for
  the start of a later member.
-/

/-- A JSON value with strings in `σ` and numbers in `ν`. -/
inductive Json (σ ν : Type) where
  | null
  | bool (b : Bool)
  | num (n : ν)
  | str (s : σ)
  | arr (xs : List (Json σ ν))
  | obj (ms : List (σ × Json σ ν))

namespace Json

variable {σ ν μ : Type}

/-- Induction over a value, with the hypothesis for every element of an array
and for the value of every member of an object. -/
@[elab_as_elim]
theorem induction {P : Json σ ν → Prop} (null : P .null) (bool : ∀ b, P (.bool b))
    (num : ∀ n, P (.num n)) (str : ∀ s, P (.str s))
    (arr : ∀ xs, (∀ x ∈ xs, P x) → P (.arr xs))
    (obj : ∀ ms, (∀ m ∈ ms, P m.2) → P (.obj ms)) : ∀ v, P v := by
  refine @Json.rec σ ν P (fun xs => ∀ x ∈ xs, P x) (fun ms => ∀ m ∈ ms, P m.2) (fun m => P m.2)
    null bool num str arr obj ?nil ?cons ?mnil ?mcons ?pair
  case nil => intro x hx; exact absurd hx List.not_mem_nil
  case cons =>
    intro x xs hx hxs y hy
    rcases List.mem_cons.1 hy with rfl | h
    · exact hx
    · exact hxs y h
  case mnil => intro m hm; exact absurd hm List.not_mem_nil
  case mcons =>
    intro m ms hm hms n hn
    rcases List.mem_cons.1 hn with rfl | h
    · exact hm
    · exact hms n h
  case pair => intro k v hv; exact hv

/-! ## Members -/

/-- The value a key stands for: the last member with that key. -/
def lookup [DecidableEq σ] (key : σ) : List (σ × Json σ ν) → Option (Json σ ν)
  | [] => none
  | (k, v) :: ms => (lookup key ms).or (if k = key then some v else none)

/-- The text of a string value; `none` for every other kind. -/
def asStr : Json σ ν → Option σ
  | .str s => some s
  | _ => none

/-- The elements of an array; `none` for every other kind. -/
def asArr : Json σ ν → Option (List (Json σ ν))
  | .arr xs => some xs
  | _ => none

/-- The members of an object; `none` for every other kind. -/
def asObj : Json σ ν → Option (List (σ × Json σ ν))
  | .obj ms => some ms
  | _ => none

theorem lookup_append [DecidableEq σ] (key : σ) (ms ns : List (σ × Json σ ν)) :
    lookup key (ms ++ ns) = (lookup key ns).or (lookup key ms) := by
  induction ms with
  | nil => simp [lookup]
  | cons m ms ih => obtain ⟨k, v⟩ := m; simp [lookup, ih, Option.or_assoc]

theorem lookup_eq_none [DecidableEq σ] {key : σ} {ms : List (σ × Json σ ν)}
    (h : ∀ m ∈ ms, m.1 ≠ key) : lookup key ms = none := by
  induction ms with
  | nil => rfl
  | cons m ms ih =>
    obtain ⟨k, v⟩ := m
    have hk : k ≠ key := h (k, v) (List.mem_cons_self ..)
    simp [lookup, hk, ih (fun n hn => h n (List.mem_cons_of_mem _ hn))]

/-! ## Numbers rewritten -/

mutual
/-- The same document with every number rewritten. -/
def mapNum (f : ν → μ) : Json σ ν → Json σ μ
  | .null => .null
  | .bool b => .bool b
  | .num n => .num (f n)
  | .str s => .str s
  | .arr xs => .arr (mapNumL f xs)
  | .obj ms => .obj (mapNumM f ms)

/-- `mapNum` over the elements of an array. -/
def mapNumL (f : ν → μ) : List (Json σ ν) → List (Json σ μ)
  | [] => []
  | x :: xs => mapNum f x :: mapNumL f xs

/-- `mapNum` over the members of an object. -/
def mapNumM (f : ν → μ) : List (σ × Json σ ν) → List (σ × Json σ μ)
  | [] => []
  | (k, v) :: ms => (k, mapNum f v) :: mapNumM f ms
end

/-- Rewriting numbers leaves the keys, and so the lookups, in place. -/
theorem lookup_mapNumM [DecidableEq σ] (f : ν → μ) (key : σ) (ms : List (σ × Json σ ν)) :
    lookup key (mapNumM f ms) = (lookup key ms).map (mapNum f) := by
  induction ms with
  | nil => rfl
  | cons m ms ih =>
    obtain ⟨k, v⟩ := m
    rw [mapNumM, lookup, lookup, ih, Option.map_or]
    by_cases hk : k = key <;> simp [hk]

/-! ## String literals -/

/-- The hexadecimal digit of a number below 16, in lower case. -/
def hexDigit (n : Nat) : Char := if n < 10 then Char.ofNat (48 + n) else Char.ofNat (87 + n)

/-- A character as it stands inside a string literal. -/
def escapeChar (c : Char) : List Char :=
  if c = '"' then ['\\', '"']
  else if c = '\\' then ['\\', '\\']
  else if c = '\n' then ['\\', 'n']
  else if c = '\r' then ['\\', 'r']
  else if c = '\t' then ['\\', 't']
  else if c.toNat = 8 then ['\\', 'b']
  else if c.toNat = 12 then ['\\', 'f']
  else if c.toNat < 32 then ['\\', 'u', '0', '0', hexDigit (c.toNat / 16), hexDigit (c.toNat % 16)]
  else [c]

/-- A string literal. -/
def quote (s : String) : List Char := '"' :: (s.toList.flatMap escapeChar ++ ['"'])

theorem hexDigit_toNat {n : Nat} (h : n < 16) :
    (hexDigit n).toNat = if n < 10 then 48 + n else 87 + n := by
  unfold hexDigit
  split
  · rw [Char.toNat_ofNat, if_pos (by unfold Nat.isValidChar; omega)]
  · rw [Char.toNat_ofNat, if_pos (by unfold Nat.isValidChar; omega)]

/-- No escaped character holds a raw control character. -/
theorem printable_escapeChar {c d : Char} (h : d ∈ escapeChar c) : 32 ≤ d.toNat := by
  have hhex : ∀ n, n < 16 → 32 ≤ (hexDigit n).toNat := by
    intro n hn
    rw [hexDigit_toNat hn]
    split <;> omega
  have hlt : c.toNat < 32 → c.toNat / 16 < 16 ∧ c.toNat % 16 < 16 := by omega
  unfold escapeChar at h
  split_ifs at h with h1 h2 h3 h4 h5 h6 h7 h8 <;>
    simp only [List.mem_cons, List.not_mem_nil, or_false] at h
  any_goals rcases h with rfl | rfl <;> decide
  · rcases h with rfl | rfl | rfl | rfl | rfl | rfl
    · decide
    · decide
    · decide
    · decide
    · exact hhex _ (hlt h8).1
    · exact hhex _ (hlt h8).2
  · subst h; omega

theorem printable_quote {s : String} {d : Char} (h : d ∈ quote s) : 32 ≤ d.toNat := by
  simp only [quote, List.mem_cons, List.mem_append, List.mem_flatMap, List.not_mem_nil,
    or_false] at h
  rcases h with rfl | ⟨c, -, hc⟩ | rfl
  · decide
  · exact printable_escapeChar hc
  · decide

/-- A string literal is at least as long as the string. -/
theorem length_le_quote (s : String) : s.toList.length ≤ (quote s).length := by
  have h : ∀ l : List Char, l.length ≤ (l.flatMap escapeChar).length := by
    intro l
    induction l with
    | nil => simp
    | cons c cs ih =>
      have hc : 1 ≤ (escapeChar c).length := by
        unfold escapeChar
        split_ifs <;> simp
      simp only [List.flatMap_cons, List.length_append, List.length_cons]
      omega
  have := h s.toList
  simp only [quote, List.length_cons, List.length_append, List.length_nil]
  omega

/-! ## Numbers -/

/-- The characters a number may be made of. -/
def isNumChar (c : Char) : Bool :=
  c.isDigit || c = '-' || c = '+' || c = '.' || c = 'e' || c = 'E'

/-- The integer part: a single zero, or digits not starting with one. -/
def validInt : List Char → Bool
  | [] => false
  | [c] => c.isDigit
  | c :: cs => c.isDigit && c != '0' && cs.all Char.isDigit

/-- One digit or more. -/
def validDigits (cs : List Char) : Bool := !cs.isEmpty && cs.all Char.isDigit

/-- What may follow the `e` of an exponent. -/
def validExp : List Char → Bool
  | '+' :: cs => validDigits cs
  | '-' :: cs => validDigits cs
  | cs => validDigits cs

/-- What may follow the integer part: a fraction, an exponent, or both. -/
def validTail : List Char → Bool
  | [] => true
  | '.' :: cs =>
    validDigits (cs.takeWhile Char.isDigit) &&
      match cs.dropWhile Char.isDigit with
      | [] => true
      | c :: ds => (c = 'e' || c = 'E') && validExp ds
  | c :: cs => (c = 'e' || c = 'E') && validExp cs

/-- The number grammar after the optional minus sign. -/
def validUnsigned (cs : List Char) : Bool :=
  validInt (cs.takeWhile Char.isDigit) && validTail (cs.dropWhile Char.isDigit)

/-- The JSON number grammar. -/
def validNumber : List Char → Bool
  | '-' :: cs => validUnsigned cs
  | cs => validUnsigned cs

/-- A text that is exactly one JSON number. -/
structure IsNumber (t : List Char) : Prop where
  /-- It satisfies the grammar. -/
  valid : validNumber t = true
  /-- It is made of number characters. -/
  chars : ∀ c ∈ t, isNumChar c = true

/-- The decimal text of a natural number. -/
def natText (n : Nat) : List Char := Nat.toDigits 10 n

/-- The decimal text of an integer. -/
def intText (n : Int) : List Char :=
  if n < 0 then '-' :: natText n.natAbs else natText n.natAbs

theorem isDigit_natText {n : Nat} {c : Char} (h : c ∈ natText n) : c.isDigit = true :=
  Nat.isDigit_of_mem_toDigits (by decide) (by decide) h

theorem natText_ne_nil (n : Nat) : natText n ≠ [] := Nat.toDigits_ne_nil

theorem natText_injective : Function.Injective natText := by
  intro m n h
  have hm := Nat.ofDigitChars_ten_toDigits (n := m)
  have hn := Nat.ofDigitChars_ten_toDigits (n := n)
  rw [← hm, ← hn]
  exact congrArg (Nat.ofDigitChars 10 · 0) h

/-- A decimal text starts with a zero only when it is the zero. -/
theorem natText_head {n : Nat} (hn : 0 < n) : ∃ c cs, natText n = c :: cs ∧ c ≠ '0' := by
  induction n using Nat.strong_induction_on with
  | _ n ih =>
    by_cases h : n < 10
    · refine ⟨n.digitChar, [], Nat.toDigits_of_lt_base h, ?_⟩
      interval_cases n <;> decide
    · obtain ⟨c, cs, hcs, hc⟩ := ih (n / 10) (by omega) (by omega)
      refine ⟨c, cs ++ [(n % 10).digitChar], ?_, hc⟩
      rw [natText] at hcs ⊢
      rw [Nat.toDigits_of_base_le (by decide) (by omega), hcs, List.cons_append]

theorem takeWhile_digits {ds rest : List Char} (hd : ∀ c ∈ ds, c.isDigit = true)
    (hr : ∀ c ∈ rest.head?, c.isDigit = false) :
    (ds ++ rest).takeWhile Char.isDigit = ds ∧ (ds ++ rest).dropWhile Char.isDigit = rest := by
  have hrest : rest.takeWhile Char.isDigit = [] ∧ rest.dropWhile Char.isDigit = rest := by
    cases rest with
    | nil => simp
    | cons c cs => have := hr c rfl; simp [this]
  have h1 : ds.takeWhile Char.isDigit = ds := List.takeWhile_eq_self_iff.2 hd
  have h2 : ds.dropWhile Char.isDigit = [] := List.dropWhile_eq_nil_iff.2 hd
  simp [List.takeWhile_append, List.dropWhile_append, h1, h2, hrest]

theorem validInt_natText (n : Nat) : validInt (natText n) = true := by
  have hall : ∀ c ∈ natText n, c.isDigit = true := fun c hc => isDigit_natText hc
  rcases Nat.eq_zero_or_pos n with rfl | hn
  · decide
  · obtain ⟨c, cs, hcs, hc⟩ := natText_head hn
    rw [hcs] at hall ⊢
    have hcd : c.isDigit = true := hall c (List.mem_cons_self ..)
    cases cs with
    | nil => simpa [validInt] using hcd
    | cons d ds =>
      have : ∀ x ∈ d :: ds, x.isDigit = true := fun x hx => hall x (List.mem_cons_of_mem _ hx)
      simp only [validInt, hcd, Bool.true_and, Bool.and_eq_true, bne_iff_ne, ne_eq, hc,
        not_false_eq_true, true_and]
      exact List.all_eq_true.2 this

theorem validNumber_of_unsigned {cs : List Char} (h : validUnsigned cs = true) :
    validNumber cs = true := by
  unfold validNumber
  split
  · -- a text with a sign in front is no unsigned number
    simp [validUnsigned, validInt] at h
  · exact h

/-- A decimal text followed by a valid tail is a valid number. -/
theorem validUnsigned_natText_append (n : Nat) {tail : List Char} (ht : validTail tail = true)
    (hh : ∀ c ∈ tail.head?, c.isDigit = false) : validUnsigned (natText n ++ tail) = true := by
  obtain ⟨h1, h2⟩ := takeWhile_digits (fun c hc => isDigit_natText (n := n) hc) hh
  rw [validUnsigned, h1, h2, validInt_natText, ht]
  rfl

theorem isNumber_natText (n : Nat) : IsNumber (natText n) where
  valid := validNumber_of_unsigned (by
    simpa using @validUnsigned_natText_append n [] rfl (by simp))
  chars c hc := by simp [isNumChar, isDigit_natText hc]

theorem isNumber_neg {t : List Char} (hv : validUnsigned t = true)
    (hc : ∀ c ∈ t, isNumChar c = true) : IsNumber ('-' :: t) where
  valid := hv
  chars c h := by
    rcases List.mem_cons.1 h with rfl | h
    · decide
    · exact hc c h

theorem isNumber_intText (n : Int) : IsNumber (intText n) := by
  unfold intText
  split
  · refine isNumber_neg ?_ (isNumber_natText _).chars
    simpa using @validUnsigned_natText_append n.natAbs [] rfl (by simp)
  · exact isNumber_natText _

/-- A number holds no control character. -/
theorem IsNumber.printable {t : List Char} (h : IsNumber t) : ∀ c ∈ t, 32 ≤ c.toNat := by
  intro c hc
  have hnum := h.chars c hc
  simp only [isNumChar, Bool.or_eq_true, decide_eq_true_eq] at hnum
  rcases hnum with ((((hdigit | rfl) | rfl) | rfl) | rfl) | rfl
  · have := (Char.isDigit_iff_toNat.1 hdigit).1
    exact le_trans (by decide) this
  all_goals decide

/-! ## The compact text -/

/-- Texts separated by commas. -/
def joinComma : List (List Char) → List Char
  | [] => []
  | [t] => t
  | t :: u :: ts => t ++ ',' :: joinComma (u :: ts)

section Render

variable (qt : σ → List Char) (nt : ν → List Char)

mutual
/-- The compact text of a value, given how strings and numbers are written. -/
def render : Json σ ν → List Char
  | .null => ['n', 'u', 'l', 'l']
  | .bool true => ['t', 'r', 'u', 'e']
  | .bool false => ['f', 'a', 'l', 's', 'e']
  | .num n => nt n
  | .str s => qt s
  | .arr xs => '[' :: (joinComma (renderL xs) ++ [']'])
  | .obj ms => '{' :: (joinComma (renderM ms) ++ ['}'])

/-- The texts of the elements of an array. -/
def renderL : List (Json σ ν) → List (List Char)
  | [] => []
  | x :: xs => render x :: renderL xs

/-- The texts of the members of an object. -/
def renderM : List (σ × Json σ ν) → List (List Char)
  | [] => []
  | (k, v) :: ms => (qt k ++ ':' :: render v) :: renderM ms
end

theorem renderL_eq_map (xs : List (Json σ ν)) : renderL qt nt xs = xs.map (render qt nt) := by
  induction xs with
  | nil => rfl
  | cons x xs ih => rw [renderL, ih, List.map_cons]

theorem renderM_eq_map (ms : List (σ × Json σ ν)) :
    renderM qt nt ms = ms.map (fun m => qt m.1 ++ ':' :: render qt nt m.2) := by
  induction ms with
  | nil => rfl
  | cons m ms ih => obtain ⟨k, v⟩ := m; rw [renderM, ih, List.map_cons]

theorem mem_joinComma {ts : List (List Char)} {c : Char} (h : c ∈ joinComma ts) :
    c = ',' ∨ ∃ t ∈ ts, c ∈ t := by
  induction ts with
  | nil => simp [joinComma] at h
  | cons t ts ih =>
    cases ts with
    | nil => exact Or.inr ⟨t, by simp, h⟩
    | cons u us =>
      rw [joinComma, List.mem_append, List.mem_cons] at h
      rcases h with h | rfl | h
      · exact Or.inr ⟨t, by simp, h⟩
      · exact Or.inl rfl
      · rcases ih h with rfl | ⟨w, hw, hcw⟩
        · exact Or.inl rfl
        · exact Or.inr ⟨w, List.mem_cons_of_mem _ hw, hcw⟩

/-- No character of a compact text is a control character, provided none is in
the way strings and numbers are written. -/
theorem printable_render (hq : ∀ s, ∀ c ∈ qt s, 32 ≤ c.toNat)
    (hn : ∀ n, ∀ c ∈ nt n, 32 ≤ c.toNat) (v : Json σ ν) :
    ∀ c ∈ render qt nt v, 32 ≤ c.toNat := by
  induction v using Json.induction with
  | null => simp [render]
  | bool b => cases b <;> simp [render]
  | num n => exact hn n
  | str s => exact hq s
  | arr xs ih =>
    intro c hc
    simp only [render, renderL_eq_map, List.mem_cons, List.mem_append, List.not_mem_nil,
      or_false] at hc
    rcases hc with rfl | hc | rfl
    · decide
    · rcases mem_joinComma hc with rfl | ⟨t, ht, hct⟩
      · decide
      · obtain ⟨x, hx, rfl⟩ := List.mem_map.1 ht
        exact ih x hx c hct
    · decide
  | obj ms ih =>
    intro c hc
    simp only [render, renderM_eq_map, List.mem_cons, List.mem_append, List.not_mem_nil,
      or_false] at hc
    rcases hc with rfl | hc | rfl
    · decide
    · rcases mem_joinComma hc with rfl | ⟨t, ht, hct⟩
      · decide
      · obtain ⟨m, hm, rfl⟩ := List.mem_map.1 ht
        rcases List.mem_append.1 hct with h | h
        · exact hq m.1 c h
        · rcases List.mem_cons.1 h with rfl | h
          · decide
          · exact ih m hm c h
    · decide

/-- Members one after the other, each behind a comma. -/
def commaMembers (ms : List (σ × Json σ ν)) : List Char :=
  ms.flatMap (fun m => ',' :: (qt m.1 ++ ':' :: render qt nt m.2))

theorem commaMembers_append (ms ns : List (σ × Json σ ν)) :
    commaMembers qt nt (ms ++ ns) = commaMembers qt nt ms ++ commaMembers qt nt ns :=
  List.flatMap_append

theorem joinComma_cons (t : List Char) (ts : List (List Char)) :
    joinComma (t :: ts) = t ++ ts.flatMap (fun u => ',' :: u) := by
  induction ts generalizing t with
  | nil => simp [joinComma]
  | cons u us ih => rw [joinComma, ih, List.flatMap_cons, List.cons_append]

/-- The text of an object with a first member. -/
theorem render_obj_cons (m : σ × Json σ ν) (ms : List (σ × Json σ ν)) :
    render qt nt (.obj (m :: ms)) =
      '{' :: (qt m.1 ++ ':' :: render qt nt m.2 ++ commaMembers qt nt ms ++ ['}']) := by
  rw [render, renderM_eq_map, List.map_cons, joinComma_cons, List.flatMap_map, commaMembers]

end Render

/-! ## Where a member can start

Behind the first one a member starts with a comma and a quotation mark.  Inside
a string literal a quotation mark has a backslash in front of it, so the two
meet only where a literal ends, and what follows there is no key. -/

section Start

variable {k : Char} {v rest : List Char}

/-- Text without a comma holds no start of a pattern that begins with one. -/
theorem not_infix_of_no_comma {l : List Char} (hl : ∀ c ∈ l, c ≠ ',')
    (h : ¬ ',' :: v <:+: rest) : ¬ ',' :: v <:+: l ++ rest := by
  induction l with
  | nil => exact h
  | cons c cs ih =>
    have hc : c ≠ ',' := hl c (List.mem_cons_self ..)
    rw [List.cons_append, List.infix_cons_iff]
    rintro (hpre | hinf)
    · exact hc (List.cons_prefix_cons.1 hpre).1.symm
    · exact ih (fun d hd => hl d (List.mem_cons_of_mem _ hd)) hinf

/-- A comma, a quotation mark and another character than the pattern's. -/
theorem not_infix_comma {c : Char} (hc : c ≠ k) (h : ¬ ',' :: '"' :: k :: v <:+: '"' :: c :: rest) :
    ¬ ',' :: '"' :: k :: v <:+: ',' :: '"' :: c :: rest := by
  rw [List.infix_cons_iff]
  rintro (hpre | hinf)
  · simp only [List.cons_prefix_cons, true_and] at hpre
    exact hc hpre.1.symm
  · exact h hinf

/-- A member whose key starts with another character than the pattern's. -/
theorem not_infix_member {key : List Char} {c : Char} {cs : List Char}
    (hkey : key = '"' :: c :: cs) (hc : c ≠ k) (hcomma : ∀ d ∈ key, d ≠ ',')
    (h : ¬ ',' :: '"' :: k :: v <:+: rest) : ¬ ',' :: '"' :: k :: v <:+: ',' :: (key ++ rest) := by
  have hbehind : ¬ ',' :: '"' :: k :: v <:+: key ++ rest := not_infix_of_no_comma hcomma h
  rw [hkey, List.cons_append, List.cons_append] at hbehind ⊢
  exact not_infix_comma hc hbehind

/-- An escaped character is a bare comma, or holds no comma and does not start
with a quotation mark. -/
theorem escapeChar_cases (c : Char) :
    escapeChar c = [','] ∨
      ((∀ d ∈ escapeChar c, d ≠ ',') ∧ (escapeChar c).head? ≠ some '"') := by
  by_cases hcomma : c = ','
  · subst hcomma
    exact Or.inl rfl
  · refine Or.inr ?_
    have hhex : ∀ n, n < 16 → hexDigit n ≠ ',' := by
      intro n hn
      interval_cases n <;> decide
    unfold escapeChar
    split_ifs with h1 h2 h3 h4 h5 h6 h7 h8
    · simp
    · simp
    · simp
    · simp
    · simp
    · simp
    · simp
    · refine ⟨?_, by simp⟩
      intro d hd
      simp only [List.mem_cons, List.not_mem_nil, or_false] at hd
      rcases hd with rfl | rfl | rfl | rfl | rfl | rfl
      · decide
      · decide
      · decide
      · decide
      · exact hhex _ (by omega)
      · exact hhex _ (by omega)
    · simp [hcomma, h1]

/-- A literal has no comma that the string has not. -/
theorem ne_comma_of_mem_quote {s : String} (hs : ',' ∉ s.toList) {d : Char} (hd : d ∈ quote s) :
    d ≠ ',' := by
  rintro rfl
  simp only [quote, List.mem_cons, List.mem_append, List.mem_flatMap, List.not_mem_nil,
    or_false] at hd
  rcases hd with hd | ⟨c, hc, hd⟩ | hd
  · exact absurd hd (by decide)
  · rcases escapeChar_cases c with hesc | ⟨hesc, -⟩
    · have hcomma : c = ',' := by
        revert hesc
        unfold escapeChar
        split_ifs <;> simp
      exact hs (hcomma ▸ hc)
    · exact hesc _ hd rfl
  · exact absurd hd (by decide)

/-- What a literal's characters are followed by never starts with a quotation
mark and then the pattern's key, unless what follows the literal does. -/
theorem not_infix_quote (hrest : rest.head? ≠ some k) (h : ¬ ',' :: '"' :: k :: v <:+: rest)
    (s : String) : ¬ ',' :: '"' :: k :: v <:+: quote s ++ rest := by
  have hend : ¬ ',' :: '"' :: k :: v <:+: '"' :: rest :=
    @not_infix_of_no_comma _ rest ['"'] (by simp) h
  have hchars : ∀ l : List Char,
      ¬ ',' :: '"' :: k :: v <:+: l.flatMap escapeChar ++ '"' :: rest := by
    intro l
    induction l with
    | nil => exact hend
    | cons c cs ih =>
      rw [List.flatMap_cons, List.append_assoc]
      rcases escapeChar_cases c with hc | ⟨hc, -⟩
      · rw [hc, List.singleton_append, List.infix_cons_iff]
        rintro (hpre | hinf)
        · -- after a comma comes the next character, escaped, or the end of the literal
          rw [List.cons_prefix_cons] at hpre
          cases cs with
          | nil =>
            simp only [List.flatMap_nil, List.nil_append, List.cons_prefix_cons, true_and] at hpre
            cases rest with
            | nil => simp at hpre
            | cons r rs =>
              rw [List.cons_prefix_cons] at hpre
              exact hrest (by rw [hpre.1]; rfl)
          | cons d ds =>
            rcases escapeChar_cases d with hd | ⟨-, hd⟩
            · rw [List.flatMap_cons, hd, List.append_assoc, List.singleton_append,
                List.cons_prefix_cons] at hpre
              exact absurd hpre.2.1 (by decide)
            · obtain ⟨e, es, he⟩ : ∃ e es, escapeChar d = e :: es :=
                List.exists_cons_of_ne_nil (by unfold escapeChar; split_ifs <;> simp)
              rw [List.flatMap_cons, he, List.append_assoc, List.cons_append,
                List.cons_prefix_cons] at hpre
              rw [he] at hd
              exact hd (by rw [← hpre.2.1]; rfl)
        · exact ih hinf
      · exact not_infix_of_no_comma hc ih
  rw [quote, List.cons_append, List.append_assoc, List.singleton_append]
  exact @not_infix_of_no_comma _ _ ['"'] (by simp) (hchars s.toList)

end Start

end Json

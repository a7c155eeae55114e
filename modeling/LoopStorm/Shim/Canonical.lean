import LoopStorm.Lib.JsonSort
import LoopStorm.Shim.ArgsHash

/-!
# One canonical text in two languages

When `jcs.ts` and `_jcs.py` give the arguments of a call one text, and with it
one hash.  A value is held as Python holds it, its integers those a JavaScript
number can hold; `toJs` is what the other shim has in its place.

* `Ts.numberText` — the text JavaScript gives an integer, digits first and
  zeros after; `numberText_eq_intText` says it is the decimal text.
* `jcs_eq_render` — the canonical text is the compact text of the value with
  its members sorted.
* `agree_iff` — **the two texts are one** exactly when every string can be
  encoded and the two orders agree on every two keys of one object.
* `Sample.disagree` — a pair of keys they do not agree on.
-/

namespace LoopStorm.Shim

open LoopStorm.Engine (Sha256 sha256Hex)

/-! ## Integers -/

/-- An integer a JavaScript number holds exactly. -/
structure SafeInt where
  val : ℤ
  safe : val.natAbs ≤ 2 ^ 53 - 1

namespace Ts

/-- A JavaScript number with an integer value. -/
structure Number where
  val : ℤ

/-- A number without its trailing zeros, and how many there are. -/
def stripZeros (n : Nat) : Nat × Nat :=
  if h : n ≠ 0 ∧ n % 10 = 0 then
    have : n / 10 < n := by omega
    ((stripZeros (n / 10)).1, (stripZeros (n / 10)).2 + 1)
  else (n, 0)

/-- `Number::toString` of an integer below `10 ^ 21`: its significant digits,
followed by zeros. -/
def numberText (n : Number) : List Char :=
  let (digits, zeros) := stripZeros n.val.natAbs
  let text := Json.natText digits ++ List.replicate zeros '0'
  if n.val < 0 then '-' :: text else text

instance : NumberText Number :=
  ⟨fun n => ⟨n⟩, numberText, fun n => some (numberText n)⟩

theorem natText_stripZeros (n : Nat) :
    Json.natText (stripZeros n).1 ++ List.replicate (stripZeros n).2 '0' = Json.natText n := by
  fun_induction stripZeros n with
  | case1 n h hlt ih =>
    obtain ⟨hpos, hmod⟩ := h
    have htext : Json.natText n = Json.natText (n / 10) ++ ['0'] := by
      rw [Json.natText, Json.natText, Nat.toDigits_of_base_le (by decide) (by omega), hmod]
      rfl
    rw [htext, ← ih, List.replicate_succ', List.append_assoc]
  | case2 n h => exact List.append_nil _

theorem numberText_eq_intText (n : Number) : numberText n = Json.intText n.val := by
  rw [numberText, Json.intText]
  dsimp only
  rw [natText_stripZeros]

/-! ## Strings -/

theorem isLead_eq (u : UInt16) :
    isLead u = decide (0xD800 ≤ u.toNat ∧ u.toNat < 0xDC00) := by
  rw [isLead, Bool.decide_and]
  rfl

theorem isTrail_eq (u : UInt16) :
    isTrail u = decide (0xDC00 ≤ u.toNat ∧ u.toNat < 0xE000) := by
  rw [isTrail, Bool.decide_and]
  rfl

theorem toNat_ofNat {n : Nat} (h : n < 0x10000) : (UInt16.ofNat n).toNat = n :=
  UInt16.toNat_ofNat_of_lt' h

/-- No character is a surrogate. -/
theorem not_surrogate (c : Char) : c.toNat < 0xD800 ∨ 0xDFFF < c.toNat ∧ c.toNat < 0x110000 :=
  c.valid

theorem quoteUnits_cons {u : UInt16} (h : isLead u = false) (us : Str) :
    quoteUnits (u :: us) = quoteUnit u ++ quoteUnits us := by
  cases us with
  | nil => rw [quoteUnits, quoteUnits, List.append_nil]
  | cons v us => rw [quoteUnits, h, Bool.false_and, if_neg Bool.false_ne_true]

/-- A character is written as it is in any string. -/
theorem quoteUnits_units (c : Char) (us : Str) :
    quoteUnits (units c ++ us) = Json.escapeChar c ++ quoteUnits us := by
  have hvalid := not_surrogate c
  by_cases hbmp : c.toNat < 0x10000
  · have hnat := toNat_ofNat hbmp
    have hlead : isLead (UInt16.ofNat c.toNat) = false := by
      rw [isLead_eq, hnat]
      exact decide_eq_false (by omega)
    have htrail : isTrail (UInt16.ofNat c.toNat) = false := by
      rw [isTrail_eq, hnat]
      exact decide_eq_false (by omega)
    rw [units, if_pos hbmp, List.singleton_append, quoteUnits_cons hlead, quoteUnit, hlead, htrail,
      Bool.or_false, if_neg Bool.false_ne_true, hnat, Char.ofNat_toNat]
  · have hlt : (c.toNat - 0x10000) / 0x400 < 0x400 := by omega
    have hmod : (c.toNat - 0x10000) % 0x400 < 0x400 := Nat.mod_lt _ (by decide)
    have hhigh := toNat_ofNat (show 0xD800 + (c.toNat - 0x10000) / 0x400 < 0x10000 by omega)
    have hlow := toNat_ofNat (show 0xDC00 + (c.toNat - 0x10000) % 0x400 < 0x10000 by omega)
    have hsum : 0x10000 + (0xD800 + (c.toNat - 0x10000) / 0x400 - 0xD800) * 0x400 +
        (0xDC00 + (c.toNat - 0x10000) % 0x400 - 0xDC00) = c.toNat := by
      omega
    rw [units, if_neg hbmp, List.cons_append, List.singleton_append, quoteUnits, isLead_eq,
      isTrail_eq, hhigh, hlow, hsum, Char.ofNat_toNat, if_pos]
    rw [Bool.and_eq_true, decide_eq_true_eq, decide_eq_true_eq]
    omega

/-- A string literal in either language. -/
theorem quote_lit (s : String) : quote (lit s) = Json.quote s := by
  have h (cs : List Char) : quoteUnits (cs.flatMap units) = cs.flatMap Json.escapeChar := by
    induction cs with
    | nil => rfl
    | cons c cs ih => rw [List.flatMap_cons, quoteUnits_units, ih, List.flatMap_cons]
  rw [quote, lit, h, Json.quote]

theorem lit_injective : Function.Injective lit := by
  intro s t h
  have hquote : Json.render Json.quote Json.intText (.str s) =
      Json.render Json.quote Json.intText (.str t) := by
    rw [Json.render, Json.render, ← quote_lit, ← quote_lit, h]
  exact Json.str.inj (Json.render_injective Json.isNumber_intText Json.intText_injective hquote)

end Ts

/-! ## The two orders -/

/-- The order of the keys in TypeScript: by code units. -/
def Ts.keyLe (k l : String) : Bool := decide (Ts.lit k ≤ Ts.lit l)

/-- The order of the keys in Python: by the bytes of the code units. -/
def Py.keyLe (k l : String) : Bool := decide (Py.utf16SortKey k ≤ Py.utf16SortKey l)

theorem Ts.linear_keyLe : Json.Linear Ts.keyLe where
  trans a b c hab hbc :=
    decide_eq_true (List.le_trans (of_decide_eq_true hab) (of_decide_eq_true hbc))
  total a b := by
    rw [Ts.keyLe, Ts.keyLe, decide_eq_true_eq, decide_eq_true_eq]
    exact List.le_total _ _
  antisymm a b hab hba :=
    Ts.lit_injective (List.le_antisymm (of_decide_eq_true hab) (of_decide_eq_true hba))

/-- The two bytes of a code unit. -/
theorem eq_of_bytes {u v : UInt16} (hlow : u.toUInt8 = v.toUInt8)
    (hhigh : (u >>> 8).toUInt8 = (v >>> 8).toUInt8) : u = v := by
  have hlow := congrArg UInt8.toNat hlow
  have hhigh := congrArg UInt8.toNat hhigh
  simp only [UInt16.toNat_toUInt8, UInt16.toNat_shiftRight] at hlow hhigh
  have hu := u.toNat_lt
  have hv := v.toNat_lt
  have hshift (w : UInt16) : w.toNat >>> ((8 : UInt16).toNat % 16) = w.toNat / 256 :=
    Nat.shiftRight_eq_div_pow ..
  rw [hshift, hshift] at hhigh
  refine UInt16.toNat_inj.1 ?_
  omega

theorem Py.utf16SortKey_injective : Function.Injective Py.utf16SortKey := by
  have h (us vs : Ts.Str)
      (heq : us.flatMap (fun u : UInt16 => [u.toUInt8, (u >>> 8).toUInt8]) =
        vs.flatMap fun u : UInt16 => [u.toUInt8, (u >>> 8).toUInt8]) : us = vs := by
    induction us generalizing vs with
    | nil =>
      cases vs with
      | nil => rfl
      | cons v vs => cases heq
    | cons u us ih =>
      cases vs with
      | nil => cases heq
      | cons v vs =>
        simp only [List.flatMap_cons, List.cons_append, List.nil_append, List.cons.injEq] at heq
        obtain ⟨hlow, hhigh, hrest⟩ := heq
        rw [eq_of_bytes hlow hhigh, ih vs hrest]
  intro s t heq
  exact Ts.lit_injective (h _ _ heq)

theorem Py.linear_keyLe : Json.Linear Py.keyLe where
  trans a b c hab hbc :=
    decide_eq_true (List.le_trans (of_decide_eq_true hab) (of_decide_eq_true hbc))
  total a b := by
    rw [Py.keyLe, Py.keyLe, decide_eq_true_eq, decide_eq_true_eq]
    exact List.le_total _ _
  antisymm a b hab hba :=
    Py.utf16SortKey_injective (List.le_antisymm (of_decide_eq_true hab) (of_decide_eq_true hba))

/-! ## The canonical text -/

section Jcs

variable {σ ν : Type} [NumberText ν]

theorem jcsElems_eq_some {quote : σ → List Char} {le : σ → σ → Bool} {text : Json σ ν → List Char}
    {xs : List (Json σ ν)} (h : ∀ x ∈ xs, jcs quote le x = some (text x)) :
    jcsElems quote le xs = some (xs.map text) := by
  induction xs with
  | nil => rfl
  | cons x xs ih =>
    rw [jcsElems, h x (List.mem_cons_self ..), ih fun y hy => h y (List.mem_cons_of_mem _ hy)]
    rfl

theorem jcsMembers_eq_some {quote : σ → List Char} {le : σ → σ → Bool}
    {text : Json σ ν → List Char} {ms : List (σ × Json σ ν)}
    (h : ∀ m ∈ ms, jcs quote le m.2 = some (text m.2)) :
    jcsMembers quote le ms = some (ms.map fun m => (m.1, text m.2)) := by
  induction ms with
  | nil => rfl
  | cons m ms ih =>
    obtain ⟨k, v⟩ := m
    have hv : jcs quote le v = some (text v) := h (k, v) (List.mem_cons_self ..)
    rw [jcsMembers, hv, ih fun n hn => h n (List.mem_cons_of_mem _ hn)]
    rfl

/-- The canonical text is the compact text of the value with its members
sorted. -/
theorem jcs_eq_render {quote : σ → List Char} {le : σ → σ → Bool} {nt : ν → List Char}
    (hnt : ∀ n, NumberText.canonical n = some (nt n)) (v : Json σ ν) :
    jcs quote le v = some (Json.render quote nt (Json.sortKeys le v)) := by
  induction v using Json.induction with
  | null => rfl
  | bool b => cases b <;> rfl
  | num n => exact hnt n
  | str s => rfl
  | arr xs ih =>
    rw [jcs, jcsElems_eq_some ih, Json.sortKeys, Json.render, Json.renderL_eq_map,
      Json.sortKeysL_eq_map, List.map_map]
    rfl
  | obj ms ih =>
    have hms := @jcsMembers_eq_some σ ν _ quote le
      (fun v => Json.render quote nt (Json.sortKeys le v)) ms ih
    rw [jcs, hms, Json.sortKeys, Json.render, Json.renderM_eq_map,
      Json.sortMembers_sortKeysM, List.map_map]
    refine congrArg (fun ts => some ('{' :: (Json.joinComma ts ++ ['}']))) ?_
    have hsorted := Json.map_sortMembers le (fun m : σ × Json σ ν =>
      (m.1, Json.render quote nt (Json.sortKeys le m.2))) (fun _ => rfl) ms
    show (Json.sortMembers le _).map _ = _
    rw [← hsorted, List.map_map]
    rfl

end Jcs

/-! ## The two shims -/

/-- A Python string as JavaScript holds it. -/
def Py.toJs (s : Py.Str) : Ts.Str :=
  s.flatMap fun
    | .scalar c => Ts.units c
    | .surrogate n => [UInt16.ofNat (0xD800 + n)]

/-- Arguments both shims can be given: a value as Python holds it. -/
abbrev Args : Type := Json Py.Str SafeInt

/-- The arguments in Python. -/
def Args.toPy (v : Args) : Json Py.Str ℤ := v.mapNum SafeInt.val

/-- The arguments in TypeScript. -/
def Args.toTs (v : Args) : Json Ts.Str Ts.Number :=
  Json.mapStr Py.toJs (Json.mapNum Ts.Number.mk v.toPy)

/-- The canonical text in Python; `none` when a string holds a surrogate. -/
def Py.canonical (v : Json Py.Str ℤ) : Option (List Char) :=
  (Py.encodeValue v).bind Py.jcsSerialize

/-- Every string of the arguments can be encoded, and wherever two keys meet in
an object, the two orders agree on them. -/
def Args.SortsAlike (v : Args) : Prop :=
  ∃ w, Py.encodeValue v.toPy = some w ∧ Json.SortsAlike Ts.keyLe Py.keyLe w

theorem Py.encode_eq_some {s : Py.Str} {t : String} (h : Py.encode s = some t) :
    s = Py.lit t := by
  obtain ⟨cs, hcs, rfl⟩ := Option.map_eq_some_iff.1 h
  rw [Py.lit, String.toList_ofList]
  clear h
  induction s generalizing cs with
  | nil =>
    obtain rfl : cs = [] := by simpa using hcs.symm
    rfl
  | cons p s ih =>
    simp only [List.mapM_cons, Option.bind_eq_bind, Option.bind_eq_some_iff, Option.pure_def,
      Option.some.injEq] at hcs
    obtain ⟨c, hp, ds, hs, rfl⟩ := hcs
    cases p with
    | scalar d =>
      cases hp
      rw [List.map_cons, ← ih ds hs]
    | surrogate n => cases hp

theorem Py.encodeValues_eq_some {ν : Type} {xs : List (Json Py.Str ν)}
    {ys : List (Json String ν)}
    (ih : ∀ x ∈ xs, ∀ w, Py.encodeValue x = some w → x = Json.mapStr Py.lit w)
    (h : Py.encodeValues xs = some ys) : xs = ys.map (Json.mapStr Py.lit) := by
  induction xs generalizing ys with
  | nil =>
    cases h
    rfl
  | cons x xs ihxs =>
    simp only [Py.encodeValues, Option.bind_eq_bind, Option.bind_eq_some_iff, Option.pure_def,
      Option.some.injEq] at h
    obtain ⟨y, hy, zs, hzs, rfl⟩ := h
    rw [List.map_cons, ← ihxs (fun z hz => ih z (List.mem_cons_of_mem _ hz)) hzs,
      ← ih x (List.mem_cons_self ..) y hy]

theorem Py.encodeMembers_eq_some {ν : Type} {ms : List (Py.Str × Json Py.Str ν)}
    {ns : List (String × Json String ν)}
    (ih : ∀ m ∈ ms, ∀ w, Py.encodeValue m.2 = some w → m.2 = Json.mapStr Py.lit w)
    (h : Py.encodeMembers ms = some ns) :
    ms = ns.map fun n => (Py.lit n.1, Json.mapStr Py.lit n.2) := by
  induction ms generalizing ns with
  | nil =>
    cases h
    rfl
  | cons m ms ihms =>
    obtain ⟨k, v⟩ := m
    simp only [Py.encodeMembers, Option.bind_eq_bind, Option.bind_eq_some_iff, Option.pure_def,
      Option.some.injEq] at h
    obtain ⟨l, hl, w, hw, ws, hws, rfl⟩ := h
    rw [List.map_cons, ← ihms (fun n hn => ih n (List.mem_cons_of_mem _ hn)) hws,
      ← Py.encode_eq_some hl]
    exact congrArg (fun u => (k, u) :: ms) (ih (k, v) (List.mem_cons_self ..) w hw)

/-- What has been encoded is the value it was encoded from. -/
theorem Py.encodeValue_eq_some {ν : Type} {v : Json Py.Str ν} {w : Json String ν}
    (h : Py.encodeValue v = some w) : v = Json.mapStr Py.lit w := by
  induction v using Json.induction generalizing w with
  | null =>
    cases h
    rfl
  | bool b =>
    cases h
    rfl
  | num n =>
    cases h
    rfl
  | str s =>
    obtain ⟨t, ht, rfl⟩ := Option.map_eq_some_iff.1 h
    rw [Json.mapStr, ← Py.encode_eq_some ht]
  | arr xs ih =>
    obtain ⟨ys, hys, rfl⟩ := Option.map_eq_some_iff.1 h
    rw [Json.mapStr, Json.mapStrL_eq_map,
      ← Py.encodeValues_eq_some (fun x hx w hw => ih x hx hw) hys]
  | obj ms ih =>
    obtain ⟨ns, hns, rfl⟩ := Option.map_eq_some_iff.1 h
    rw [Json.mapStr, Json.mapStrM_eq_map,
      ← Py.encodeMembers_eq_some (fun m hm w hw => ih m hm hw) hns]

theorem Py.toJs_lit (s : String) : Py.toJs (Py.lit s) = Ts.lit s := by
  rw [Py.toJs, Py.lit, List.flatMap_map, Ts.lit]

/-- The value in TypeScript, from the value Python has encoded. -/
theorem mapStr_toJs (w : Json String ℤ) :
    Json.mapStr Py.toJs (Json.mapNum Ts.Number.mk (Json.mapStr Py.lit w)) =
      Json.mapStr Ts.lit (Json.mapNum Ts.Number.mk w) := by
  induction w using Json.induction with
  | null => rfl
  | bool b => rfl
  | num n => rfl
  | str s => rw [Json.mapStr, Json.mapNum, Json.mapStr, Py.toJs_lit, Json.mapNum, Json.mapStr]
  | arr xs ih =>
    simp only [Json.mapStr, Json.mapNum, Json.mapStrL_eq_map, Json.mapNumL_eq_map, List.map_map]
    exact congrArg Json.arr (List.map_congr_left ih)
  | obj ms ih =>
    simp only [Json.mapStr, Json.mapNum, Json.mapStrM_eq_map, Json.mapNumM_eq_map, List.map_map]
    refine congrArg Json.obj (List.map_congr_left fun m hm => ?_)
    exact Prod.ext (Py.toJs_lit m.1) (ih m hm)

/-- Every number of the TypeScript shim has a canonical text. -/
theorem canonical_number (n : Ts.Number) : NumberText.canonical n = some (Ts.numberText n) := rfl

theorem canonical_encoded {v : Args} {w : Json String ℤ} (h : Py.encodeValue v.toPy = some w) :
    Py.canonical v.toPy =
        some (Json.render Json.quote Json.intText (Json.sortKeys Py.keyLe w)) ∧
      Ts.jcsSerialize v.toTs =
        some (Json.render Json.quote Json.intText (Json.sortKeys Ts.keyLe w)) := by
  constructor
  · rw [Py.canonical, h]
    exact jcs_eq_render (fun _ => rfl) w
  · rw [Ts.jcsSerialize, Args.toTs, Py.encodeValue_eq_some h, mapStr_toJs,
      jcs_eq_render canonical_number,
      Json.render_sortKeys_map Ts.quote_lit (fun n => Ts.numberText_eq_intText ⟨n⟩)
        (fun _ _ => rfl)]
    rfl

theorem argsHash_toPy [Sha256] (v : Args) :
    (Py.argsHash v.toPy).map Py.toJs =
      (Py.canonical v.toPy).map fun text => Ts.lit (sha256Hex (String.ofList text)) := by
  rw [Py.argsHash, Py.canonical]
  cases Py.encodeValue v.toPy with
  | none => rfl
  | some w =>
    show ((Py.jcsSerialize w).bind _).map _ = (Py.jcsSerialize w).map _
    cases Py.jcsSerialize w with
    | none => rfl
    | some text => exact congrArg some (Py.toJs_lit _)

/-- The texts are one exactly when the two orders sort the value alike. -/
theorem canonical_eq_iff (v : Args) :
    Py.canonical v.toPy = Ts.jcsSerialize v.toTs ↔ v.SortsAlike := by
  cases hencode : Py.encodeValue v.toPy with
  | none =>
    -- Python has no text, TypeScript always has one
    have htext : Ts.jcsSerialize v.toTs ≠ none := by
      rw [Ts.jcsSerialize, jcs_eq_render canonical_number]
      exact Option.some_ne_none _
    constructor
    · intro h
      rw [Py.canonical, hencode] at h
      exact absurd h.symm htext
    · rintro ⟨w, hw, -⟩
      rw [hencode] at hw
      cases hw
  | some w =>
    obtain ⟨hpy, hts⟩ := canonical_encoded hencode
    have hsorted := Json.sortKeys_eq_iff Ts.linear_keyLe Py.linear_keyLe w
    constructor
    · intro h
      rw [hpy, hts] at h
      have heq := Json.render_injective Json.isNumber_intText Json.intText_injective
        (Option.some.inj h)
      exact ⟨w, hencode, hsorted.1 heq.symm⟩
    · rintro ⟨u, hu, halike⟩
      obtain rfl := Option.some.inj (hencode.symm.trans hu)
      rw [hpy, hts, hsorted.2 halike]

/-- **The two texts are one**, and with them the two hashes, exactly when every
string can be encoded and the two orders agree on every two keys of one
object. -/
theorem agree_iff [Sha256] (v : Args) :
    (Py.canonical v.toPy = Ts.jcsSerialize v.toTs ∧
        (Py.argsHash v.toPy).map Py.toJs = Ts.argsHash v.toTs) ↔
      v.SortsAlike := by
  have hhash : Py.canonical v.toPy = Ts.jcsSerialize v.toTs →
      (Py.argsHash v.toPy).map Py.toJs = Ts.argsHash v.toTs := by
    intro h
    rw [argsHash_toPy, h, Ts.argsHash]
  rw [and_iff_left_of_imp hhash, canonical_eq_iff]

namespace Sample

/-- An object with one key inside ASCII and one just outside. -/
def keys : Args :=
  .obj [([.scalar 'a'], .null), ([.scalar (Char.ofNat 0x100)], .bool true)]

/-- The low byte of the second key comes before that of the first. -/
theorem disagree : Py.canonical keys.toPy ≠ Ts.jcsSerialize keys.toTs := by
  rw [ne_eq, canonical_eq_iff]
  rintro ⟨w, hw, halike⟩
  have hencode : Py.encodeValue keys.toPy =
      some (.obj [("a", .null), (String.ofList [Char.ofNat 0x100], .bool true)]) := rfl
  obtain rfl := Option.some.inj (hencode.symm.trans hw)
  cases halike with
  | obj ms hkeys h =>
    have hle := hkeys "a" (by simp) (String.ofList [Char.ofNat 0x100]) (by simp)
    revert hle
    decide +kernel

end Sample

end LoopStorm.Shim

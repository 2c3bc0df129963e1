import Mathlib.Data.Char
import Mathlib.Tactic

/-! JSON texts without fractions. Strings are written in printable ASCII, what is beyond the first plane as two
surrogates; white space may follow a comma and a colon. What is written is read back. A surrogate that stands alone and
a number with a point or an exponent are not read. -/

namespace CausalEngine.Foundations

inductive Json
  | null
  | bool (b : Bool)
  | int (n : ℤ)
  | str (s : String)
  | arr (l : List Json)
  | obj (l : List (String × Json))

namespace Json

abbrev Text := List Char

section Escapes

def hexVal (c : Char) : Option ℕ :=
  if '0' ≤ c ∧ c ≤ '9' then some (c.toNat - '0'.toNat)
  else if 'a' ≤ c ∧ c ≤ 'f' then some (c.toNat - 'a'.toNat + 10)
  else if 'A' ≤ c ∧ c ≤ 'F' then some (c.toNat - 'A'.toNat + 10)
  else none

def hexDigits (n : ℕ) : Text := [n / 4096 % 16, n / 256 % 16, n / 16 % 16, n % 16].map Nat.digitChar

def unit (n : ℕ) : Text := '\\' :: 'u' :: hexDigits n

def escapeDct : List (Char × Char) :=
  [('\\', '\\'), ('"', '"'), ('\x08', 'b'), ('\x0c', 'f'), ('\n', 'n'), ('\r', 'r'), ('\t', 't')]

def backslash : List (Char × Char) := ('/', '/') :: escapeDct.map Prod.swap

def escapeChar (c : Char) : Text :=
  match escapeDct.lookup c with
  | some d => ['\\', d]
  | none =>
    if ' ' ≤ c ∧ c ≤ '~' then [c]
    else if c.toNat < 0x10000 then unit c.toNat
    else unit (0xd800 + (c.toNat - 0x10000) / 1024) ++ unit (0xdc00 + (c.toNat - 0x10000) % 1024)

def escape (s : Text) : Text := s.flatMap escapeChar

def readUnit : Text → Option (ℕ × Text)
  | a :: b :: c :: d :: rest =>
    (hexVal a).bind fun a => (hexVal b).bind fun b => (hexVal c).bind fun c => (hexVal d).map fun d =>
      (4096 * a + 256 * b + 16 * c + d, rest)
  | _ => none

def readLow (u : ℕ) : Text → Option (Char × Text)
  | '\\' :: 'u' :: rest =>
    (readUnit rest).bind fun v =>
      if 0xdc00 ≤ v.1 ∧ v.1 ≤ 0xdfff then some (Char.ofNat (0x10000 + 1024 * (u - 0xd800) + (v.1 - 0xdc00)), v.2)
      else none
  | _ => none

def readUnicode (cs : Text) : Option (Char × Text) :=
  (readUnit cs).bind fun u =>
    if 0xd800 ≤ u.1 ∧ u.1 ≤ 0xdbff then readLow u.1 u.2
    else if 0xdc00 ≤ u.1 ∧ u.1 ≤ 0xdfff then none
    else some (Char.ofNat u.1, u.2)

def readEscape : Text → Option (Char × Text)
  | [] => none
  | d :: rest => if d = 'u' then readUnicode rest else (backslash.lookup d).map (·, rest)

def readString : ℕ → Text → Option (Text × Text)
  | n + 1, c :: rest =>
    if c = '"' then some ([], rest)
    else if c = '\\' then
      (readEscape rest).bind fun (c, rest) => (readString n rest).map fun (s, rest) => (c :: s, rest)
    else if c < ' ' then none
    else (readString n rest).map fun (s, rest) => (c :: s, rest)
  | _, _ => none

end Escapes

section ReadBack

lemma hexVal_digitChar {d : ℕ} (h : d < 16) : hexVal d.digitChar = some d := by
  have hall : ∀ d < 16, hexVal d.digitChar = some d := by decide
  exact hall d h

lemma readUnit_hexDigits {n : ℕ} (h : n < 0x10000) (rest : Text) : readUnit (hexDigits n ++ rest) = some (n, rest) := by
  have hd : ∀ m, hexVal (m % 16).digitChar = some (m % 16) := fun m => hexVal_digitChar (Nat.mod_lt m (by norm_num))
  simp only [hexDigits, List.map_cons, List.map_nil, List.cons_append, List.nil_append, readUnit, hd, Option.bind_some,
    Option.map_some, Option.some.injEq, Prod.mk.injEq, and_true]
  omega

lemma readUnicode_plane {c : Char} (h : c.toNat < 0x10000) (rest : Text) :
    readUnicode (hexDigits c.toNat ++ rest) = some (c, rest) := by
  have hvalid : c.toNat < 0xd800 ∨ 0xdfff < c.toNat ∧ c.toNat < 0x110000 := c.valid
  rw [readUnicode, readUnit_hexDigits h, Option.bind_some, if_neg (by omega), if_neg (by omega), Char.ofNat_toNat]

lemma readUnicode_pair {c : Char} (h : 0x10000 ≤ c.toNat) (rest : Text) :
    readUnicode (hexDigits (0xd800 + (c.toNat - 0x10000) / 1024) ++
      unit (0xdc00 + (c.toNat - 0x10000) % 1024) ++ rest) = some (c, rest) := by
  have hvalid : c.toNat < 0xd800 ∨ 0xdfff < c.toNat ∧ c.toNat < 0x110000 := c.valid
  have hnat : 0x10000 + 1024 * (0xd800 + (c.toNat - 0x10000) / 1024 - 0xd800) +
      (0xdc00 + (c.toNat - 0x10000) % 1024 - 0xdc00) = c.toNat := by
    omega
  rw [readUnicode, List.append_assoc, readUnit_hexDigits (by omega), Option.bind_some, if_pos (by omega), unit,
    List.cons_append, List.cons_append, readLow, readUnit_hexDigits (by omega), Option.bind_some, if_pos (by omega),
    hnat, Char.ofNat_toNat]

lemma backslash_escapeDct : ∀ e ∈ escapeDct, e.2 ≠ 'u' ∧ backslash.lookup e.2 = some e.1 := by decide

lemma mem_escapeDct {c d : Char} (h : escapeDct.lookup c = some d) : (c, d) ∈ escapeDct := by
  obtain ⟨l, l', hl, -⟩ := List.lookup_eq_some_iff.mp h
  rw [hl]
  simp

lemma plain_of_lookup {c : Char} (h : escapeDct.lookup c = none) : c ≠ '"' ∧ c ≠ '\\' := by
  constructor <;> (rintro rfl; revert h; decide)

lemma readString_escape_char (c : Char) (n : ℕ) (rest : Text) : readString (n + 1) (escapeChar c ++ rest) =
    (readString n rest).map fun (s, rest) => (c :: s, rest) := by
  have hescape : ∀ e, readEscape (e ++ rest) = some (c, rest) → readString (n + 1) ('\\' :: e ++ rest) =
      (readString n rest).map fun (s, rest) => (c :: s, rest) := by
    intro e he
    rw [List.cons_append, readString, if_neg (by decide), if_pos rfl, he, Option.bind_some]
  rw [escapeChar]
  cases hdct : escapeDct.lookup c with
  | some d =>
    obtain ⟨hu, hback⟩ := backslash_escapeDct _ (mem_escapeDct hdct)
    apply hescape
    rw [List.singleton_append, readEscape, if_neg hu, hback, Option.map_some]
  | none =>
    obtain ⟨hquote, hback⟩ := plain_of_lookup hdct
    dsimp only
    split_ifs with hplain hplane
    · rw [List.singleton_append, readString, if_neg hquote, if_neg hback, if_neg (not_lt.mpr hplain.1)]
    · exact hescape _ (readUnicode_plane hplane rest)
    · exact hescape ('u' :: (hexDigits _ ++ unit _)) (readUnicode_pair (not_lt.mp hplane) rest)

lemma readString_escape {s : Text} {n : ℕ} (h : s.length < n) (rest : Text) :
    readString n (escape s ++ '"' :: rest) = some (s, rest) := by
  induction s generalizing n with
  | nil =>
    obtain ⟨n, rfl⟩ := Nat.exists_eq_add_of_lt h
    rfl
  | cons c s ih =>
    cases n with
    | zero => exact absurd h (Nat.not_lt_zero _)
    | succ n =>
      rw [escape, List.flatMap_cons, List.append_assoc, readString_escape_char, ← escape,
        ih (Nat.lt_of_succ_lt_succ h), Option.map_some]

end ReadBack

section Write

variable (pad : Text)

def string (s : String) : Text := '"' :: (escape s.toList ++ ['"'])

def intText : ℤ → Text
  | .ofNat m => Nat.toDigits 10 m
  | .negSucc m => '-' :: Nat.toDigits 10 (m + 1)

def commas : List Text → Text
  | [] => []
  | [a] => a
  | a :: b :: l => a ++ ',' :: (pad ++ commas (b :: l))

mutual

def dumps : Json → Text
  | null => "null".toList
  | bool true => "true".toList
  | bool false => "false".toList
  | int n => intText n
  | str s => string s
  | arr l => '[' :: (commas pad (dumpsAll l) ++ [']'])
  | obj l => '{' :: (commas pad (dumpsMembers l) ++ ['}'])

def dumpsAll : List Json → List Text
  | [] => []
  | v :: l => dumps v :: dumpsAll l

def dumpsMembers : List (String × Json) → List Text
  | [] => []
  | (k, v) :: l => (string k ++ ':' :: (pad ++ dumps v)) :: dumpsMembers l

end

mutual

def sortKeys : Json → Json
  | arr l => arr (sortAll l)
  | obj l => obj ((sortMembers l).insertionSort fun a b => a.1 ≤ b.1)
  | v => v

def sortAll : List Json → List Json
  | [] => []
  | v :: l => sortKeys v :: sortAll l

def sortMembers : List (String × Json) → List (String × Json)
  | [] => []
  | (k, v) :: l => (k, sortKeys v) :: sortMembers l

end

end Write

section Read

def isSpace (c : Char) : Bool := c ∈ [' ', '\t', '\n', '\r']

def skip (cs : Text) : Text := cs.dropWhile isSpace

section Sequence

variable {α : Type} (elem : Text → Option (α × Text)) (close : Char)

def readTail : ℕ → Text → Option (List α × Text)
  | 0, _ => none
  | n + 1, cs => (elem (skip cs)).bind fun a =>
    match skip a.2 with
    | [] => none
    | c :: rest =>
      if c = close then some ([a.1], rest)
      else if c = ',' then (readTail n rest).map fun l => (a.1 :: l.1, l.2)
      else none

def readSeq (n : ℕ) (cs : Text) : Option (List α × Text) :=
  match skip cs with
  | [] => none
  | c :: rest => if c = close then some ([], rest) else readTail elem close n (c :: rest)

end Sequence

def readKey : Text → Option (String × Text)
  | [] => none
  | c :: rest => if c = '"' then (readString (rest.length + 1) rest).map fun s => (String.ofList s.1, s.2) else none

def readMember (value : Text → Option (Json × Text)) (cs : Text) : Option ((String × Json) × Text) :=
  (readKey cs).bind fun k =>
    match skip k.2 with
    | [] => none
    | c :: rest => if c = ':' then (value (skip rest)).map fun v => ((k.1, v.1), v.2) else none

def readDigits (cs : Text) : Option (ℕ × Text) :=
  let digits := if cs.head? = some '0' then ['0'] else cs.takeWhile Char.isDigit
  let rest := cs.drop digits.length
  if digits = [] ∨ rest.head?.any (· ∈ ['.', 'e', 'E']) then none else some (Nat.ofDigitChars 10 digits 0, rest)

def readInt (cs : Text) : Option (Json × Text) :=
  if cs.head? = some '-' then (readDigits cs.tail).map fun d => (int (-d.1), d.2)
  else (readDigits cs).map fun d => (int d.1, d.2)

def literals : List (Text × Json) :=
  [("null".toList, null), ("true".toList, bool true), ("false".toList, bool false)]

def readValue : ℕ → Text → Option (Json × Text)
  | 0, _ => none
  | n + 1, cs =>
    if cs.head? = some '"' then (readKey cs).map fun s => (str s.1, s.2)
    else if cs.head? = some '[' then (readSeq (readValue n) ']' n cs.tail).map fun l => (arr l.1, l.2)
    else if cs.head? = some '{' then (readSeq (readMember (readValue n)) '}' n cs.tail).map fun l => (obj l.1, l.2)
    else match literals.find? fun e => e.1.isPrefixOf cs with
      | some e => some (e.2, cs.drop e.1.length)
      | none => readInt cs

def loads (cs : Text) : Option Json :=
  (readValue (cs.length + 1) (skip cs)).bind fun v => if skip v.2 = [] then some v.1 else none

end Read

section Tokens

/-- No number goes on in what follows. -/
def Stops (rest : Text) : Prop := ∀ c ∈ rest.head?, c.isDigit = false ∧ c ∉ ['.', 'e', 'E']

def Solid (cs : Text) : Prop := ∃ c ∈ cs.head?, isSpace c = false

lemma skip_solid {cs : Text} (h : Solid cs) (rest : Text) : skip (cs ++ rest) = cs ++ rest := by
  obtain ⟨c, hc, hspace⟩ := h
  cases cs with
  | nil => cases hc
  | cons d cs =>
    obtain rfl : d = c := by simpa using hc
    simp [skip, hspace]

lemma skip_spaces {ws : Text} (h : ∀ c ∈ ws, isSpace c = true) (cs : Text) : skip (ws ++ cs) = skip cs :=
  List.dropWhile_append_of_pos h

lemma length_escape (s : Text) : s.length ≤ (escape s).length := by
  have hone : ∀ c, 1 ≤ (escapeChar c).length := by
    intro c
    rw [escapeChar]
    split
    · simp
    · split_ifs <;> simp [unit]
  induction s with
  | nil => simp
  | cons c s ih =>
    have hc := hone c
    rw [escape] at ih ⊢
    rw [List.flatMap_cons, List.length_append, List.length_cons]
    omega

lemma readKey_string (s : String) (rest : Text) : readKey (string s ++ rest) = some (s, rest) := by
  have hlen := length_escape s.toList
  rw [string, List.cons_append, List.append_assoc, List.singleton_append, readKey, if_pos rfl,
    readString_escape (by simp; omega), Option.map_some, String.ofList_toList]

lemma toDigits_zero_head {m : ℕ} (h : (Nat.toDigits 10 m).head? = some '0') : m = 0 := by
  induction m using Nat.strong_induction_on with
  | _ m ih =>
    rcases Nat.lt_or_ge m 10 with hm | hm
    · rw [Nat.toDigits_of_lt_base hm] at h
      simpa using h
    · rw [Nat.toDigits_of_base_le (by norm_num) hm, List.head?_append_of_ne_nil _ Nat.toDigits_ne_nil] at h
      have hdiv := ih (m / 10) (by omega) h
      omega

lemma takeWhile_toDigits {m : ℕ} {rest : Text} (h : Stops rest) :
    (Nat.toDigits 10 m ++ rest).takeWhile Char.isDigit = Nat.toDigits 10 m := by
  have hdigit : ∀ c ∈ Nat.toDigits 10 m, c.isDigit = true := fun c hc =>
    Nat.isDigit_of_mem_toDigits (by norm_num) (by norm_num) hc
  have hrest : rest.takeWhile Char.isDigit = [] := by
    cases rest with
    | nil => rfl
    | cons c rest => simp [(h c (by simp)).1]
  rw [List.takeWhile_append_of_pos hdigit, hrest, List.append_nil]

lemma digits_toDigits {m : ℕ} {rest : Text} (h : Stops rest) :
    (if (Nat.toDigits 10 m ++ rest).head? = some '0' then ['0']
      else (Nat.toDigits 10 m ++ rest).takeWhile Char.isDigit) = Nat.toDigits 10 m := by
  split_ifs with hzero
  · rw [List.head?_append_of_ne_nil _ Nat.toDigits_ne_nil] at hzero
    rw [toDigits_zero_head hzero]
    rfl
  · exact takeWhile_toDigits h

lemma digit_head (m : ℕ) : ∃ c ∈ (Nat.toDigits 10 m).head?, c.isDigit = true := by
  cases hm : Nat.toDigits 10 m with
  | nil => exact absurd hm Nat.toDigits_ne_nil
  | cons c l => exact ⟨c, rfl, Nat.isDigit_of_mem_toDigits (by norm_num) (by norm_num) (hm ▸ List.mem_cons_self)⟩

lemma intText_head (n : ℤ) : ∃ c ∈ (intText n).head?, c = '-' ∨ c.isDigit = true := by
  cases n with
  | ofNat m => exact (digit_head m).imp fun _ hc => ⟨hc.1, Or.inr hc.2⟩
  | negSucc m => exact ⟨'-', rfl, Or.inl rfl⟩

lemma stops_point {rest : Text} (h : Stops rest) : rest.head?.any (· ∈ ['.', 'e', 'E']) = false := by
  cases rest with
  | nil => rfl
  | cons c rest => simpa using (h c (by simp)).2

lemma readDigits_toDigits {m : ℕ} {rest : Text} (h : Stops rest) :
    readDigits (Nat.toDigits 10 m ++ rest) = some (m, rest) := by
  simp only [readDigits, digits_toDigits h, List.drop_left, stops_point h, Nat.ofDigitChars_ten_toDigits]
  simp [Nat.toDigits_ne_nil]

lemma readInt_intText {n : ℤ} {rest : Text} (h : Stops rest) : readInt (intText n ++ rest) = some (int n, rest) := by
  cases n with
  | ofNat m =>
    obtain ⟨c, hc, hdigit⟩ := digit_head m
    have hminus : (Nat.toDigits 10 m ++ rest).head? ≠ some '-' := by
      rw [List.head?_append_of_ne_nil _ Nat.toDigits_ne_nil, hc]
      intro heq
      obtain rfl := Option.some.inj heq
      exact absurd hdigit (by decide)
    rw [intText, readInt, if_neg hminus, readDigits_toDigits h]
    rfl
  | negSucc m =>
    rw [intText, readInt, List.cons_append, List.head?_cons, if_pos rfl, List.tail_cons, readDigits_toDigits h]
    rfl

end Tokens

section Sequences

variable {α : Type} {elem : Text → Option (α × Text)} {print : α → Text} {pad : Text} {close : Char}

lemma stops_of_bracket (hclose : close ∈ [']', '}', ',']) (rest : Text) : Stops (close :: rest) := by
  intro c hc
  obtain rfl : close = c := by simpa using hc
  simp only [List.mem_cons, List.not_mem_nil, or_false] at hclose
  rcases hclose with rfl | rfl | rfl <;> decide

variable (elem print pad) in
lemma readTail_commas (hpad : ∀ c ∈ pad, isSpace c = true) (hclose : close ∈ [']', '}']) {l : List α} (hl : l ≠ [])
    (helem : ∀ a ∈ l, ∀ rest, Stops rest → elem (print a ++ rest) = some (a, rest))
    (hsolid : ∀ a ∈ l, Solid (print a)) {n : ℕ} (hn : l.length ≤ n) {ws : Text} (hws : ∀ c ∈ ws, isSpace c = true)
    (rest : Text) : readTail elem close n (ws ++ (commas pad (l.map print) ++ close :: rest)) = some (l, rest) := by
  have hbracket : isSpace close = false ∧ close ≠ ',' := by
    simp only [List.mem_cons, List.not_mem_nil, or_false] at hclose
    rcases hclose with rfl | rfl <;> decide
  have hskip : skip (close :: rest) = close :: rest := by simp [skip, hbracket.1]
  have hlast : Stops (close :: rest) := stops_of_bracket (List.mem_append_left [','] hclose) rest
  induction l generalizing n ws with
  | nil => exact absurd rfl hl
  | cons a l ih =>
    cases n with
    | zero => cases hn
    | succ n =>
      have hread := helem a (by simp)
      have hfirst := skip_solid (hsolid a (by simp))
      cases l with
      | nil =>
        rw [List.map_singleton, commas, readTail, skip_spaces hws, hfirst, hread _ hlast, Option.bind_some]
        dsimp only
        rw [hskip]
        simp
      | cons b l =>
        have hnext := ih (by simp) (fun c hc => helem c (by simp [hc])) (fun c hc => hsolid c (by simp [hc]))
          (Nat.le_of_succ_le_succ hn) hpad
        have hcomma : skip (',' :: (pad ++ (commas pad ((b :: l).map print) ++ close :: rest))) =
            ',' :: (pad ++ (commas pad ((b :: l).map print) ++ close :: rest)) := rfl
        rw [List.map_cons, List.map_cons, commas, List.append_assoc, List.cons_append, List.append_assoc,
          ← List.map_cons, readTail, skip_spaces hws, hfirst, hread _ (stops_of_bracket (by simp) _), Option.bind_some]
        dsimp only
        rw [hcomma]
        simp only [hbracket.2.symm, if_false, if_true, hnext, Option.map_some]

variable (pad) in
lemma commas_cons (a : Text) (l : List Text) : ∃ r, commas pad (a :: l) = a ++ r := by
  cases l with
  | nil => exact ⟨[], (List.append_nil a).symm⟩
  | cons b l => exact ⟨_, rfl⟩

variable (elem print pad) in
lemma readSeq_commas (hpad : ∀ c ∈ pad, isSpace c = true) (hclose : close ∈ [']', '}']) {l : List α}
    (helem : ∀ a ∈ l, ∀ rest, Stops rest → elem (print a ++ rest) = some (a, rest))
    (hsolid : ∀ a ∈ l, ∃ c ∈ (print a).head?, isSpace c = false ∧ c ≠ close) {n : ℕ} (hn : l.length ≤ n)
    (rest : Text) : readSeq elem close n (commas pad (l.map print) ++ close :: rest) = some (l, rest) := by
  have hbracket : isSpace close = false := by
    simp only [List.mem_cons, List.not_mem_nil, or_false] at hclose
    rcases hclose with rfl | rfl <;> decide
  cases l with
  | nil => simp [readSeq, commas, skip, hbracket]
  | cons a l =>
    have hall := readTail_commas elem print pad hpad hclose (List.cons_ne_nil a l) helem
      (fun b hb => (hsolid b hb).imp fun c hc => ⟨hc.1, hc.2.1⟩) hn (List.forall_mem_nil _) rest
    obtain ⟨c, hc, hspace, hne⟩ := hsolid a (by simp)
    obtain ⟨r, hr⟩ := commas_cons pad (print a) (l.map print)
    cases ha : print a with
    | nil => simp [ha] at hc
    | cons d s =>
      obtain rfl : d = c := by simpa [ha] using hc
      rw [List.nil_append, List.map_cons, hr, ha] at hall
      rw [List.map_cons, hr, ha, readSeq, List.append_assoc, skip_solid ⟨d, rfl, hspace⟩, List.cons_append]
      dsimp only
      rw [if_neg hne]
      simpa using hall

end Sequences

section Values

variable {pad : Text}

@[elab_as_elim]
lemma ind {P : Json → Prop} (hnull : P null) (hbool : ∀ b, P (bool b)) (hint : ∀ n, P (int n)) (hstr : ∀ s, P (str s))
    (harr : ∀ l, (∀ v ∈ l, P v) → P (arr l)) (hobj : ∀ l, (∀ e ∈ l, P e.2) → P (obj l)) (v : Json) : P v := by
  apply @Json.rec P (fun l => ∀ v ∈ l, P v) (fun l => ∀ e ∈ l, P e.2) (fun e => P e.2) hnull hbool hint hstr harr hobj
  · simp
  · intro v l hv hl
    simpa using ⟨hv, hl⟩
  · simp
  · intro e l he hl
    simpa using ⟨he, fun k v => hl (k, v)⟩
  · exact fun _ _ hv => hv

lemma dumpsAll_eq (l : List Json) : dumpsAll pad l = l.map (dumps pad) := by
  induction l with
  | nil => rfl
  | cons v l ih => rw [dumpsAll, ih, List.map_cons]

def member (pad : Text) (e : String × Json) : Text := string e.1 ++ ':' :: (pad ++ dumps pad e.2)

lemma dumpsMembers_eq (l : List (String × Json)) : dumpsMembers pad l = l.map (member pad) := by
  induction l with
  | nil => rfl
  | cons e l ih => rw [dumpsMembers, ih, List.map_cons, member]

def heads : List Char := ['n', 't', 'f', '"', '[', '{', '-']

variable (pad) in
lemma dumps_head (v : Json) : ∃ c ∈ (dumps pad v).head?, c ∈ heads ∨ c.isDigit = true := by
  cases v with
  | null => exact ⟨'n', rfl, by simp [heads]⟩
  | bool b =>
    cases b with
    | false => exact ⟨'f', rfl, by simp [heads]⟩
    | true => exact ⟨'t', rfl, by simp [heads]⟩
  | int n =>
    obtain ⟨c, hc, h⟩ := intText_head n
    exact ⟨c, hc, h.imp (by simp [heads, ·]) id⟩
  | str s => exact ⟨'"', rfl, by simp [heads]⟩
  | arr l => exact ⟨'[', rfl, by simp [heads]⟩
  | obj l => exact ⟨'{', rfl, by simp [heads]⟩

lemma head_solid {c : Char} (h : c ∈ heads ∨ c.isDigit = true) : isSpace c = false ∧ c ≠ ']' ∧ c ≠ '}' := by
  rcases h with h | h
  · simp only [heads, List.mem_cons, List.not_mem_nil, or_false] at h
    rcases h with rfl | rfl | rfl | rfl | rfl | rfl | rfl <;> decide
  · have hnot : ∀ d : Char, d.isDigit = false → c ≠ d := by
      rintro d hd rfl
      rw [hd] at h
      cases h
    have hspace : isSpace c = false := by
      simp [isSpace, hnot ' ' (by decide), hnot '\t' (by decide), hnot '\n' (by decide), hnot '\r' (by decide)]
    exact ⟨hspace, hnot ']' (by decide), hnot '}' (by decide)⟩

variable (pad) in
lemma solid_dumps (v : Json) : Solid (dumps pad v) :=
  (dumps_head pad v).imp fun _ hc => ⟨hc.1, (head_solid hc.2).1⟩

variable (pad) in
lemma dumps_pos (v : Json) : 0 < (dumps pad v).length := by
  obtain ⟨c, hc, -⟩ := dumps_head pad v
  exact List.length_pos_of_ne_nil fun hnil => by simp [hnil] at hc

variable (pad) in
lemma length_commas (l : List Text) (hl : ∀ a ∈ l, 0 < a.length) :
    l.length ≤ (commas pad l).length ∧ ∀ a ∈ l, a.length ≤ (commas pad l).length := by
  induction l with
  | nil => simp [commas]
  | cons a l ih =>
    cases l with
    | nil => simpa [commas, Nat.one_le_iff_ne_zero, Nat.pos_iff_ne_zero] using hl a (by simp)
    | cons b l =>
      obtain ⟨hlen, hle⟩ := ih fun c hc => hl c (List.mem_cons_of_mem a hc)
      have ha := hl a (by simp)
      have hcommas : (commas pad (a :: b :: l)).length = a.length + 1 + pad.length + (commas pad (b :: l)).length := by
        simp [commas]
        omega
      rw [hcommas]
      refine ⟨by simp only [List.length_cons] at hlen ⊢; omega, fun c hc => ?_⟩
      rcases List.mem_cons.mp hc with rfl | hc
      · omega
      · have hc := hle c hc
        omega

lemma readMember_member (hpad : ∀ c ∈ pad, isSpace c = true) {value : Text → Option (Json × Text)} {e : String × Json}
    {rest : Text} (hvalue : value (dumps pad e.2 ++ rest) = some (e.2, rest)) :
    readMember value (member pad e ++ rest) = some (e, rest) := by
  have hcolon : skip (':' :: (pad ++ dumps pad e.2 ++ rest)) = ':' :: (pad ++ dumps pad e.2 ++ rest) := rfl
  rw [readMember, member, List.append_assoc, List.cons_append, readKey_string, Option.bind_some]
  dsimp only
  rw [hcolon]
  dsimp only
  rw [if_pos rfl, List.append_assoc, skip_spaces hpad, skip_solid (solid_dumps pad e.2), hvalue, Option.map_some]

lemma readValue_int {m : ℤ} {rest : Text} (hrest : Stops rest) (n : ℕ) :
    readValue (n + 1) (intText m ++ rest) = some (int m, rest) := by
  obtain ⟨c, hc, h⟩ := intText_head m
  cases htext : intText m with
  | nil => simp [htext] at hc
  | cons d l =>
    obtain rfl : d = c := by simpa [htext] using hc
    have hne : ∀ e : Char, ¬ (e = '-' ∨ e.isDigit = true) → d ≠ e := by
      rintro e he rfl
      exact he h
    have hfind : (literals.find? fun e => e.1.isPrefixOf (d :: (l ++ rest))) = none := by
      simp [literals, List.isPrefixOf, (hne 'n' (by decide)).symm, (hne 't' (by decide)).symm,
        (hne 'f' (by decide)).symm]
    have hread := readInt_intText (n := m) hrest
    rw [htext, List.cons_append] at hread
    rw [List.cons_append, readValue, hfind]
    simpa [hne '"' (by decide), hne '[' (by decide), hne '{' (by decide)] using hread

lemma readValue_dumps (hpad : ∀ c ∈ pad, isSpace c = true) (v : Json) {n : ℕ} (hn : (dumps pad v).length ≤ n)
    {rest : Text} (hrest : Stops rest) : readValue n (dumps pad v ++ rest) = some (v, rest) := by
  induction v using ind generalizing n rest with
  | hnull =>
    obtain ⟨n, rfl⟩ := Nat.exists_eq_add_of_le' ((dumps_pos pad null).trans_le hn)
    rfl
  | hbool b =>
    obtain ⟨n, rfl⟩ := Nat.exists_eq_add_of_le' ((dumps_pos pad (bool b)).trans_le hn)
    cases b <;> rfl
  | hint m =>
    obtain ⟨n, rfl⟩ := Nat.exists_eq_add_of_le' ((dumps_pos pad (int m)).trans_le hn)
    exact readValue_int hrest n
  | hstr s =>
    obtain ⟨n, rfl⟩ := Nat.exists_eq_add_of_le' ((dumps_pos pad (str s)).trans_le hn)
    have hhead : (string s ++ rest).head? = some '"' := rfl
    rw [dumps, readValue, if_pos hhead, readKey_string, Option.map_some]
  | harr l ih =>
    obtain ⟨n, rfl⟩ := Nat.exists_eq_add_of_le' ((dumps_pos pad (arr l)).trans_le hn)
    obtain ⟨hlen, hle⟩ := length_commas pad (l.map (dumps pad)) (by simpa using fun v _ => dumps_pos pad v)
    rw [dumps, dumpsAll_eq, List.length_cons, List.length_append, List.length_singleton] at hn
    rw [List.length_map] at hlen
    have helem : ∀ v ∈ l, ∀ rest, Stops rest → readValue n (dumps pad v ++ rest) = some (v, rest) :=
      fun v hv rest hrest => ih v hv ((hle _ (List.mem_map_of_mem hv)).trans (by omega)) hrest
    have hseq := readSeq_commas (readValue n) (dumps pad) pad hpad (List.mem_cons_self : ']' ∈ [']', '}']) helem
      (fun v _ => (dumps_head pad v).imp fun c hc => ⟨hc.1, (head_solid hc.2).1, (head_solid hc.2).2.1⟩)
      (by omega : l.length ≤ n) rest
    rw [dumps, dumpsAll_eq, List.cons_append, List.append_assoc, readValue]
    simp only [List.head?_cons, List.tail_cons, List.singleton_append, hseq]
    rfl
  | hobj l ih =>
    obtain ⟨n, rfl⟩ := Nat.exists_eq_add_of_le' ((dumps_pos pad (obj l)).trans_le hn)
    have hpos : ∀ a ∈ l.map (member pad), 0 < a.length := by
      intro a ha
      obtain ⟨e, -, rfl⟩ := List.mem_map.mp ha
      exact Nat.succ_pos _
    obtain ⟨hlen, hle⟩ := length_commas pad (l.map (member pad)) hpos
    rw [dumps, dumpsMembers_eq, List.length_cons, List.length_append, List.length_singleton] at hn
    rw [List.length_map] at hlen
    have helem : ∀ e ∈ l, ∀ rest, Stops rest → readMember (readValue n) (member pad e ++ rest) = some (e, rest) := by
      intro e he rest hrest
      have hmember := hle _ (List.mem_map_of_mem he)
      have hvalue : (dumps pad e.2).length ≤ (member pad e).length := by
        simp [member]
        omega
      exact readMember_member hpad (ih e he (by omega) hrest)
    have hseq := readSeq_commas (readMember (readValue n)) (member pad) pad hpad
      (List.mem_cons_of_mem ']' List.mem_cons_self : '}' ∈ [']', '}']) helem
      (fun e _ => ⟨'"', rfl, by decide, by decide⟩) (by omega : l.length ≤ n) rest
    rw [dumps, dumpsMembers_eq, List.cons_append, List.append_assoc, readValue]
    simp only [List.head?_cons, List.tail_cons, List.singleton_append, hseq]
    rfl

theorem loads_dumps (hpad : ∀ c ∈ pad, isSpace c = true) (v : Json) : loads (dumps pad v) = some v := by
  have hend : Stops [] := fun _ hc => by cases hc
  have hread := readValue_dumps hpad v (Nat.le_succ _) hend
  have hskip := skip_solid (solid_dumps pad v) []
  rw [List.append_nil] at hread hskip
  rw [loads, hskip, hread]
  rfl

theorem dumps_injective (hpad : ∀ c ∈ pad, isSpace c = true) : Function.Injective (dumps pad) := by
  intro v w h
  have hv := loads_dumps hpad v
  rw [h, loads_dumps hpad w] at hv
  exact (Option.some.inj hv).symm

end Values

end Json

end CausalEngine.Foundations

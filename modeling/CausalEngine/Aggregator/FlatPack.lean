import CausalEngine.Aggregator.PackLines

/-! The flat file of a query pack is read back exactly, also with blank lines and comments put in. -/

namespace CausalEngine.Aggregator

open Foundations

/-- No surrounding white space, no line break, no comment inside, and no `#` in front. -/
structure Plain (s : Text) : Prop where
  trimmed : trimSpace s = s
  oneLine : '\n' ∉ s
  unmarked : ¬ [' ', '#'] <:+: s
  head : s.head? ≠ some '#'

structure IsKey (s : Text) : Prop extends Plain s where
  nonempty : s ≠ []
  colon : ':' ∉ s

structure Entry where
  indent : ℕ
  key : String
  gap : ℕ
  value : String
  isKey : IsKey key.toList
  plain : Plain value.toList

def pairText (k : Text) (gap : ℕ) (v : Text) : Text := k ++ ':' :: (List.replicate (gap + 1) ' ' ++ v)

def Entry.line (e : Entry) : Text :=
  List.replicate (e.indent + 1) ' ' ++ pairText e.key.toList e.gap e.value.toList

def itoa (n : Int64) : Text :=
  match n.toInt with
  | .ofNat m => Nat.toDigits 10 m
  | .negSucc m => '-' :: Nat.toDigits 10 (m + 1)

section Flat

variable {F : Type} (parseFloat : String → Option F)

structure Threshold extends Entry where
  number : F
  parses : parseFloat value = some number

structure FlatPack where
  intervalS : Int64
  windowMin : Int64
  queries : List Entry
  distinct : (queries.map Entry.key).Nodup
  thresholds : List (Threshold parseFloat)

variable {parseFloat} (f : FlatPack parseFloat)

def FlatPack.lines : List Text :=
  [pairText "interval_s".toList 0 (itoa f.intervalS), pairText "window_min".toList 0 (itoa f.windowMin),
    "queries:".toList] ++ f.queries.map Entry.line ++
  "thresholds:".toList :: f.thresholds.map fun t => t.toEntry.line

def FlatPack.pack : Pack F where
  intervalS := f.intervalS
  windowMin := f.windowMin
  queries := ⟨f.queries.map fun e => (e.key, e.value), by simpa [Function.comp_def] using f.distinct⟩
  order := f.queries.map Entry.key
  thresholds := .ofList (f.thresholds.map fun t => (t.key, t.number))

end Flat

inductive Commented : List Text → List Text → Prop
  | nil : Commented [] []
  | keep {ls ls' : List Text} (l : Text) : Commented ls ls' → Commented (l :: ls) (l :: ls')
  | trail {ls ls' : List Text} (l : Text) (n : ℕ) {c : Text} : '\n' ∉ c → Commented ls ls' →
      Commented (l :: ls) ((l ++ List.replicate n ' ' ++ ' ' :: '#' :: c) :: ls')
  | blank {ls ls' : List Text} {w : Text} : (∀ a ∈ w, isSpace a = true) → '\n' ∉ w → Commented ls ls' →
      Commented ls (w :: ls')
  | comment {ls ls' : List Text} {w c : Text} : (∀ a ∈ w, isSpace a = true) → '\n' ∉ w → '\n' ∉ c →
      Commented ls ls' → Commented ls ((w ++ '#' :: c) :: ls')

def fileOf (ls : List Text) : Text := ls.flatMap (· ++ ['\n'])

section Noise

variable {F : Type} {parseFloat : String → Option F} {ls ls' : List Text}

def IsLaid (l : Text) : Prop := '\n' ∉ l ∧ ∃ n m b, Body b ∧ l = laid n m b

lemma foldl_commented (h : Commented ls ls') (hls : ∀ l ∈ ls, IsLaid l) (r : Reader F) :
    (ls'.map dropCR).foldl (Reader.line parseFloat) r = ls.foldl (Reader.line parseFloat) r := by
  induction h generalizing r with
  | nil => rfl
  | keep l _ ih =>
    obtain ⟨-, n, m, b, hb, rfl⟩ := hls l List.mem_cons_self
    rw [List.map_cons, List.foldl_cons, List.foldl_cons, dropCR_laid hb]
    exact ih (fun l hl => hls l (List.mem_cons_of_mem _ hl)) _
  | @trail _ _ l k c _ _ ih =>
    obtain ⟨-, n, m, b, hb, rfl⟩ := hls l List.mem_cons_self
    have hlaid : laid n m b ++ List.replicate k ' ' = laid n (m + k) b := by
      rw [laid, laid, List.append_assoc, List.replicate_append_replicate]
    have hcr : dropCR (laid n (m + k) b ++ ' ' :: '#' :: c) = laid n (m + k) b ++ ' ' :: '#' :: dropCR c := by
      have h := dropCR_append (by decide : '#' ≠ '\r') (laid n (m + k) b ++ [' ']) c
      simpa using h
    rw [List.map_cons, List.foldl_cons, List.foldl_cons, hlaid, hcr, line_commented hb, line_laid hb]
    exact ih (fun l hl => hls l (List.mem_cons_of_mem _ hl)) _
  | blank hw _ _ ih =>
    rw [List.map_cons, List.foldl_cons, line_blank fun a ha => hw a (mem_dropCR ha)]
    exact ih hls r
  | comment hw _ _ _ ih =>
    rw [List.map_cons, List.foldl_cons, dropCR_append (by decide), line_comment hw]
    exact ih hls r

lemma commented_oneLine (h : Commented ls ls') (hls : ∀ l ∈ ls, '\n' ∉ l) : ∀ l ∈ ls', '\n' ∉ l := by
  induction h with
  | nil => exact hls
  | keep l _ ih =>
    rw [List.forall_mem_cons] at hls ⊢
    exact ⟨hls.1, ih hls.2⟩
  | trail l n hc _ ih =>
    rw [List.forall_mem_cons] at hls ⊢
    exact ⟨by simp [hls.1, hc], ih hls.2⟩
  | blank _ hw _ ih => exact List.forall_mem_cons.mpr ⟨hw, ih hls⟩
  | comment _ hw hc _ ih => exact List.forall_mem_cons.mpr ⟨by simp [hw, hc], ih hls⟩

lemma splitOn_fileOf (hls : ∀ l ∈ ls, '\n' ∉ l) : (fileOf ls).splitOn '\n' = ls ++ [[]] := by
  induction ls with
  | nil => rfl
  | cons l ls ih =>
    rw [List.forall_mem_cons] at hls
    have hfile : fileOf (l :: ls) = l ++ '\n' :: fileOf ls := by simp [fileOf]
    rw [hfile, List.splitOn_append_cons_self, List.splitOn_eq_singleton hls.1, ih hls.2]
    rfl

lemma scanLines_fileOf (hls : ∀ l ∈ ls, '\n' ∉ l) (hshort : ∀ l ∈ ls, size l < bufferSize) :
    scanLines (fileOf ls) = .ok (ls.map dropCR) := by
  have hfits : (ls ++ [[]]).any (fun line => bufferSize ≤ size line) = false := by
    rw [List.any_eq_false]
    intro l hl
    rw [decide_eq_true_eq, not_le]
    rcases List.mem_append.mp hl with hl | hl
    · exact hshort l hl
    · rw [List.mem_singleton.mp hl]
      decide
  rw [scanLines, splitOn_fileOf hls]
  simp only [hfits, List.getLast?_concat, List.dropLast_concat, if_true, Bool.false_eq_true, if_false]

end Noise

section Pairs

variable {k v : Text}

lemma IsKey.body (hk : IsKey k) : Body k := ⟨hk.trimmed, hk.nonempty, hk.head, hk.unmarked⟩

lemma pair_unmarked (hk : IsKey k) (hv : Plain v) (gap : ℕ) : ¬ [' ', '#'] <:+: pairText k gap v := by
  have hspaces : ¬ [' ', '#'] <:+: ':' :: List.replicate (gap + 1) ' ' := by
    intro h
    have hmem : '#' ∈ ':' :: List.replicate (gap + 1) ' ' := h.subset (by simp)
    simp at hmem
  have hright := pair_infix_append hspaces hv.unmarked hv.head
  exact pair_infix_append hk.unmarked hright (by simp)

lemma splitKV_colon (hk : IsKey k) {t : Text} (ht : trimSpace t = v) :
    splitKV (k ++ ':' :: t) = some (String.ofList k, String.ofList v) := by
  have hdrop : (k ++ ':' :: t).drop (k.length + 1) = t := by
    rw [← List.drop_drop, List.drop_left, List.drop_one, List.tail_cons]
  rw [splitKV, index_letter hk.colon, Option.map_some, List.take_left, hdrop, hk.trimmed, ht]

lemma pair_laid (hk : IsKey k) (hv : Plain v) (gap : ℕ) :
    ∃ m b, Body b ∧ pairText k gap v = b ++ List.replicate m ' ' ∧
    splitKV b = some (String.ofList k, String.ofList v) ∧ k ++ [':'] <+: b := by
  obtain ⟨a, x, hax, ha, hh⟩ := hk.body.cons
  by_cases hempty : v = []
  · have hpair : pairText k gap v = (k ++ [':']) ++ List.replicate (gap + 1) ' ' := by simp [pairText, hempty]
    refine ⟨gap + 1, k ++ [':'], ⟨?_, by simp, by simp [hax, hh], ?_⟩, hpair, ?_, List.prefix_refl _⟩
    · rw [hax]
      exact trim_ends ha (by decide) x
    · exact fun h => pair_unmarked hk hv gap (hpair ▸ List.infix_append_of_infix_left h)
    · exact splitKV_colon hk (by rw [hempty]; rfl)
  · obtain ⟨y, c, hyc, hc⟩ := last_of_trim hv.trimmed hempty
    refine ⟨0, pairText k gap v, ⟨?_, by simp [pairText], by simp [pairText, hax, hh], pair_unmarked hk hv gap⟩,
      by simp, ?_, ⟨List.replicate (gap + 1) ' ' ++ v, by simp [pairText]⟩⟩
    · have hends : pairText k gap v = a :: ((x ++ ':' :: (List.replicate (gap + 1) ' ' ++ y)) ++ [c]) := by
        simp [pairText, hax, hyc]
      rw [hends]
      exact trim_ends ha hc _
    · apply splitKV_colon hk
      have hpad := trim_padded hv.trimmed (spaces (gap + 1)) (y := []) (by simp)
      rwa [List.append_nil] at hpad

end Pairs

section Numbers

lemma plain_of_letters {s : Text} (h : ∀ c ∈ s, isSpace c = false ∧ c ≠ '#') : Plain s where
  trimmed := trim_of_forall fun c hc => (h c hc).1
  oneLine hn := absurd (h _ hn).1 (by decide)
  unmarked hm := (h '#' (hm.subset (by simp))).2 rfl
  head hh := (h '#' (List.mem_of_mem_head? hh)).2 rfl

def isKeyLetter (c : Char) : Bool := !isSpace c && c ≠ '#' && c ≠ ':'

lemma isKey_of_letters {s : Text} (h : s.all isKeyLetter = true) (hne : s ≠ []) : IsKey s := by
  have hletter (c : Char) (hc : c ∈ s) : (isSpace c = false ∧ c ≠ '#') ∧ c ≠ ':' := by
    simpa [isKeyLetter] using List.all_eq_true.mp h c hc
  exact { plain_of_letters fun c hc => (hletter c hc).1 with
    nonempty := hne
    colon := fun hc => (hletter ':' hc).2 rfl }

lemma plain_digit {c : Char} (hc : c.isDigit = true) : isSpace c = false ∧ c ≠ '#' := by
  constructor
  · rw [Char.isDigit_iff_toNat] at hc
    simp only [isSpace, List.mem_cons, Char.le_def, UInt32.le_iff_toNat_le, ← Char.toNat_inj]
    simp only [show '0'.toNat = 48 from rfl, show '9'.toNat = 57 from rfl] at hc
    simp
    omega
  · rintro rfl
    exact absurd hc (by decide)

lemma plain_itoa (n : Int64) : Plain (itoa n) := by
  apply plain_of_letters
  intro c hc
  have hdigit {m : ℕ} (h : c ∈ Nat.toDigits 10 m) : isSpace c = false ∧ c ≠ '#' :=
    plain_digit (Nat.isDigit_of_mem_toDigits (by decide) (by decide) h)
  rw [itoa] at hc
  split at hc
  · exact hdigit hc
  · rcases List.mem_cons.mp hc with rfl | hc
    · decide
    · exact hdigit hc

lemma atoi_digits {s : Text} (hs : s ≠ []) (hdigit : ∀ c ∈ s, c.isDigit = true)
    (hsmall : (Nat.ofDigitChars 10 s 0 : ℤ) < 2 ^ 63) : atoi s = some (Int64.ofInt (Nat.ofDigitChars 10 s 0)) := by
  have hall : s.all Char.isDigit = true := List.all_eq_true.mpr hdigit
  have hlow : (-2 ^ 63 : ℤ) ≤ Nat.ofDigitChars 10 s 0 := by omega
  have hminus : s.head? ≠ some '-' := fun h => absurd (hdigit '-' (List.mem_of_mem_head? h)) (by decide)
  rw [atoi]
  · simp only [hs, hall, hminus, hlow, hsmall, if_false, if_true, or_self, and_self, Bool.true_eq_false]
  · rintro d rfl
    exact hminus rfl
  · rintro d rfl
    exact absurd (hdigit '+' List.mem_cons_self) (by decide)

lemma atoi_minus {s : Text} (hs : s ≠ []) (hdigit : ∀ c ∈ s, c.isDigit = true)
    (hsmall : (Nat.ofDigitChars 10 s 0 : ℤ) ≤ 2 ^ 63) :
    atoi ('-' :: s) = some (Int64.ofInt (-Nat.ofDigitChars 10 s 0)) := by
  have hall : s.all Char.isDigit = true := List.all_eq_true.mpr hdigit
  have hlow : (-2 ^ 63 : ℤ) ≤ -Nat.ofDigitChars 10 s 0 := by omega
  have hhigh : (-Nat.ofDigitChars 10 s 0 : ℤ) < 2 ^ 63 := by omega
  simp only [atoi, hs, hall, List.head?_cons, hlow, hhigh, if_false, if_true, or_self, and_self, Bool.true_eq_false]

lemma atoi_itoa (n : Int64) : atoi (itoa n) = some n := by
  have hlt := Int64.toInt_lt n
  have hle := Int64.le_toInt n
  have hdigit (m : ℕ) : ∀ c ∈ Nat.toDigits 10 m, c.isDigit = true := fun c hc =>
    Nat.isDigit_of_mem_toDigits (by decide) (by decide) hc
  rw [itoa]
  split
  · next m hm =>
    rw [atoi_digits Nat.toDigits_ne_nil (hdigit m) (by rw [Nat.ofDigitChars_ten_toDigits]; grind),
      Nat.ofDigitChars_ten_toDigits]
    exact congrArg some ((congrArg Int64.ofInt hm.symm).trans (Int64.ofInt_toInt n))
  · next m hm =>
    rw [atoi_minus Nat.toDigits_ne_nil (hdigit (m + 1)) (by rw [Nat.ofDigitChars_ten_toDigits]; grind),
      Nat.ofDigitChars_ten_toDigits]
    exact congrArg some ((congrArg Int64.ofInt hm.symm).trans (Int64.ofInt_toInt n))

end Numbers

end CausalEngine.Aggregator

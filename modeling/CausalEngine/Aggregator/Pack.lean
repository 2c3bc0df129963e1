import CausalEngine.Foundations.OrderedMap
import CausalEngine.Foundations.Trimming

/-! The query pack of the aggregator, a flat file that is read line by line. Text is a list of characters; a float
is of some type `F`, into which `parseFloat` reads a text. -/

namespace CausalEngine.Aggregator

open Foundations

abbrev Text := List Char

section Strings

def isSpace (c : Char) : Bool :=
  c ∈ ['\t', '\n', '\x0b', '\x0c', '\r', ' ', '\u0085', '\u00a0', '\u1680', '\u2028', '\u2029', '\u202f', '\u205f',
    '\u3000'] || ('\u2000' ≤ c && c ≤ '\u200a')

def trimSpace (s : Text) : Text := trim isSpace s

def hasPrefix (s : Text) (start : String) : Bool := start.toList.isPrefixOf s

def splitKV (s : Text) : Option (String × String) :=
  (index [':'] s).map fun i => (String.ofList (trimSpace (s.take i)), String.ofList (trimSpace (s.drop (i + 1))))

def valOf (s : Text) : String := (splitKV s).elim "" Prod.snd

def atoi (s : Text) : Option Int64 :=
  let digits := match s with
    | '-' :: d => d
    | '+' :: d => d
    | d => d
  let magnitude : ℤ := Nat.ofDigitChars 10 digits 0
  let n := if s.head? = some '-' then -magnitude else magnitude
  if digits = [] ∨ digits.all Char.isDigit = false then none
  else if -2 ^ 63 ≤ n ∧ n < 2 ^ 63 then some (Int64.ofInt n)
  else none

def atoiDefault (s : String) (d : Int64) : Int64 := (atoi (trimSpace s.toList)).getD d

end Strings

section Scanner

inductive ScanError
  | tooLong
deriving DecidableEq

def bufferSize : ℕ := 1024 * 1024

def size (line : Text) : ℕ := (line.map Char.utf8Size).sum

def dropCR (line : Text) : Text := if line.getLast? = some '\r' then line.dropLast else line

-- what the scanner gives out: no last line that is empty, and an error once a line fills the buffer
def scanLines (file : Text) : Except ScanError (List Text) :=
  let parts := file.splitOn '\n'
  if parts.any fun line => bufferSize ≤ size line then .error .tooLong
  else .ok ((if parts.getLast? = some [] then parts.dropLast else parts).map dropCR)

end Scanner

structure Pack (F : Type) where
  intervalS : Int64
  windowMin : Int64
  queries : OrderedMap String String
  order : List String
  thresholds : OrderedMap String F

inductive Sec
  | none | queries | thresholds
deriving DecidableEq

structure Reader (F : Type) where
  pack : Pack F
  sec : Sec

section Loading

variable {F : Type} (parseFloat : String → Option F)

def Reader.start : Reader F := ⟨⟨5, 15, .empty, [], .empty⟩, .none⟩

def stripComment (t : Text) : Text := (index [' ', '#'] t).elim t fun i => trimSpace (t.take i)

def Reader.header (r : Reader F) (t : Text) : Reader F :=
  if hasPrefix t "queries:" then { r with sec := .queries }
  else if hasPrefix t "thresholds:" then { r with sec := .thresholds }
  else if hasPrefix t "interval_s:" then { r with pack := { r.pack with intervalS := atoiDefault (valOf t) 5 } }
  else if hasPrefix t "window_min:" then { r with pack := { r.pack with windowMin := atoiDefault (valOf t) 15 } }
  else { r with sec := .none }

def Pack.addQuery (p : Pack F) (k v : String) : Pack F :=
  { p with queries := p.queries.set k v, order := p.order ++ [k] }

def Pack.addThreshold (p : Pack F) (k v : String) : Pack F :=
  (parseFloat (String.ofList (trimSpace v.toList))).elim p fun fv => { p with thresholds := p.thresholds.set k fv }

def Reader.entry (r : Reader F) (t : Text) : Reader F :=
  match splitKV t with
  | none => r
  | some (k, v) =>
    match r.sec with
    | .queries => { r with pack := r.pack.addQuery k v }
    | .thresholds => { r with pack := r.pack.addThreshold parseFloat k v }
    | .none => r

def Reader.content (r : Reader F) (indented : Bool) (t : Text) : Reader F :=
  if indented then r.entry parseFloat t else r.header t

def Reader.line (r : Reader F) (raw : Text) : Reader F :=
  let line := raw.rdropWhile (· = ' ')
  if trimSpace line = [] ∨ hasPrefix (trimSpace line) "#" then r
  else r.content parseFloat (hasPrefix line " ") (stripComment (trimSpace line))

def loadPack (file : Text) : Except ScanError (Pack F) :=
  (scanLines file).map fun lines => (lines.foldl (Reader.line parseFloat) Reader.start).pack

end Loading

end CausalEngine.Aggregator

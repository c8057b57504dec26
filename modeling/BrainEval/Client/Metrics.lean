import Mathlib
import BrainEval.Lib.Str

set_option autoImplicit false

namespace BrainEval

open RustStr

-- One exposition line, with the raw text of its label body.
structure Sample where
  name : String
  labels : String
  value : Float

structure PrometheusMetrics where
  samples : List Sample

namespace PrometheusMetrics

-- The text before the first brace, and the raw text behind it.
def splitOnce (lhs : List Char) : List Char × List Char :=
  match lhs.dropWhile (· ≠ '\x7b') with
  | [] => (lhs, [])
  | _ :: rest => (trimChars (lhs.takeWhile (· ≠ '\x7b')), rest)

section Split

variable {name : List Char} (closed : ∀ c ∈ name, c ≠ '\x7b')

include closed

theorem kept_of_closed : ∀ c ∈ name, decide (c ≠ '\x7b') = true := fun c member =>
  decide_eq_true (closed c member)

theorem splitOnce_bare : splitOnce name = (name, []) := by
  rw [splitOnce, List.dropWhile_eq_nil_iff.mpr (kept_of_closed closed)]

theorem splitOnce_braced (trimmed : trimChars name = name) (rest : List Char) :
    splitOnce (name ++ '\x7b' :: rest) = (name, rest) := by
  have all := kept_of_closed closed
  rw [splitOnce, List.dropWhile_append_of_pos all, List.takeWhile_append_of_pos all,
    List.dropWhile_cons_of_neg (by simp), List.takeWhile_cons_of_neg (by simp), List.append_nil,
    trimmed]

end Split

/-- A line and its sample, if it has one; no result where the slice behind the last blank is not on
a character boundary and the source panics. -/
def parseLine (raw : List Char) : Option (Option Sample) :=
  let line := trimChars raw
  let front := line.rdropWhile (!isWhitespace ·)
  match line.head?, front.getLast? with
  | none, _ | some '#', _ | _, none => some none
  | some _, some blank =>
    if blank.utf8Size ≠ 1 then none
    else
      match parseF64 (line.rtakeWhile (!isWhitespace ·)) with
      | none => some none
      | some value =>
        let (name, labels) := splitOnce (trimChars front.dropLast)
        some (if name = [] then none else some ⟨String.ofList name, String.ofList labels, value⟩)

-- A carriage return before the line feed is trimmed with the line.
def parse (text : String) : Option PrometheusMetrics :=
  ((text.toList.splitOnP (· = '\n')).mapM parseLine).map fun lines => ⟨lines.reduceOption⟩

variable (m : PrometheusMetrics)

def sumIf (counted : Sample → Bool) : Option Float :=
  let (found, total) := m.samples.foldl (fun acc s =>
    if counted s then (true, acc.2 + s.value) else acc) (false, 0.0)
  if found then some total else none

def sum (family : String) : Option Float := m.sumIf (·.name == family)

def Counts (family labelContains : String) (s : Sample) : Bool :=
  s.name == family && contains s.labels labelContains

def sumWhere (family labelContains : String) : Option Float :=
  m.sumIf (Counts family labelContains)

def total (values : List Float) : Option Float :=
  if values = [] then none else some (values.foldl (· + ·) 0.0)

variable {m}

theorem sumIf_eq (counted : Sample → Bool) :
    m.sumIf counted = total ((m.samples.filter counted).map (·.value)) := by
  have run : ∀ (samples : List Sample) (found : Bool) (sum : Float),
      samples.foldl (fun acc s => if counted s then (true, acc.2 + s.value) else acc) (found, sum) =
        (found || samples.any counted,
          ((samples.filter counted).map (·.value)).foldl (· + ·) sum) := by
    intro samples
    induction samples with
    | nil => simp
    | cons s samples ih =>
      intro found sum
      by_cases hit : counted s = true <;> simp [hit, ih]
  rw [sumIf, run, total]
  by_cases any : m.samples.any counted = true
  · have some_counted : (m.samples.filter counted).map (·.value) ≠ [] := by
      simpa [List.filter_eq_nil_iff] using any
    simp [any, some_counted]
  · have none_counted : (m.samples.filter counted).map (·.value) = [] := by
      simpa [List.filter_eq_nil_iff] using any
    simp [any, none_counted]

end PrometheusMetrics

end BrainEval

import ChatRoom.Base.Bytes
import Mathlib.Data.List.Induction
import Mathlib.Logic.Function.Basic

/-!
# The Redis server

The commands the API uses on its streams and its queue, over one keyspace:
`XADD` with an automatic id, `XREVRANGE`, `LPUSH`, `LRANGE` and `DEL`.  What
the server does for any other command is a parameter.
-/

namespace ChatRoom

namespace Redis

structure StreamId where
  ms : Nat
  seq : Nat
  deriving DecidableEq

namespace StreamId

def text (id : StreamId) : Str :=
  decimal id.ms ++ ascii "-" ++ decimal id.seq

def le (first second : StreamId) : Bool :=
  first.ms < second.ms || (first.ms = second.ms && first.seq ≤ second.seq)

/-- The id `XADD` gives an entry behind the last one. -/
def next (last : StreamId) (now : Nat) : StreamId :=
  if last.ms < now then ⟨now, 0⟩ else ⟨last.ms, last.seq + 1⟩

end StreamId

structure Entry where
  id : StreamId
  fields : List Str
  deriving DecidableEq

inductive Value where
  | list (elements : List Str)
  | stream (entries : List Entry) (last : StreamId)
  | other
  deriving DecidableEq

abbrev Keyspace := Str → Option Value

/-- Replies as hiredis hands them on: only a status, an error or a bulk string
has a text. -/
inductive Reply where
  | error
  | nil
  | integer (value : Int)
  | bulk (text : Str)
  | entries (entries : List (Str × List Str))

/-! ## Streams -/

/-- `XADD key * field value …`. -/
def xadd (keys : Keyspace) (now : Nat) (key : Str) (fields : List Str) :
    Keyspace × Reply :=
  if fields.length % 2 = 1 ∨ fields = [] then (keys, .error)
  else
    match keys key with
    | none =>
        let id := StreamId.next ⟨0, 0⟩ now
        (Function.update keys key (some (.stream [⟨id, fields⟩] id)),
          .bulk id.text)
    | some (.stream entries last) =>
        let id := last.next now
        (Function.update keys key
          (some (.stream (entries ++ [⟨id, fields⟩]) id)), .bulk id.text)
    | some _ => (keys, .error)

/-- One end of a range of ids. -/
inductive Bound where
  | min
  | max
  | incl (id : StreamId)
  | excl (id : StreamId)
  deriving DecidableEq

/-- `ms` or `ms-seq`; a missing `seq` is filled in. -/
def parseId (missing : Nat) (text : Str) : Option StreamId :=
  match splitFirst (ascii "-") text with
  | none => (parseDecimal text).map fun ms => ⟨ms, missing⟩
  | some (ms, seq) => do
      let ms ← parseDecimal ms
      let seq ← parseDecimal seq
      return ⟨ms, seq⟩

def parseBound (missing : Nat) (text : Str) : Option Bound :=
  if text = ascii "-" then some .min
  else if text = ascii "+" then some .max
  else
    match text with
    | 40 :: rest => (parseId missing rest).map .excl
    | _ => (parseId missing text).map .incl

def Bound.notAbove (bound : Bound) (id : StreamId) : Bool :=
  match bound with
  | .min => true
  | .max => false
  | .incl first => first.le id
  | .excl first => first.le id && first ≠ id

def Bound.notBelow (bound : Bound) (id : StreamId) : Bool :=
  match bound with
  | .min => false
  | .max => true
  | .incl last => id.le last
  | .excl last => id.le last && last ≠ id

/-- A number as an argument, in canonical form. -/
def parseNumber (digits : Str) : Option Nat :=
  (parseDecimal digits).filter fun number => decimal number = digits

/-- The number behind `COUNT`; a negative one counts as 0. -/
def parseCount : Str → Option Nat
  | 45 :: digits => (parseNumber digits).map fun _ => 0
  | digits => parseNumber digits

/-- `COUNT n`, any number of times; the last one counts. -/
def parseOptions (count : Option Nat) : List Str → Option (Option Nat)
  | [] => some count
  | name :: number :: options =>
      if name.map toLower = ascii "count" then do
        let count ← parseCount number
        parseOptions (some count) options
      else none
  | _ => none

structure Range where
  first : Bound
  last : Bound
  count : Option Nat
  deriving DecidableEq

/-- The key and the range of a well-formed `XREVRANGE`. -/
def rangeOf : List Str → Option (Str × Range)
  | command :: key :: last :: first :: options =>
      if command = ascii "XREVRANGE" then do
        let last ← parseBound (2 ^ 64 - 1) last
        let first ← parseBound 0 first
        let count ← parseOptions none options
        return (key, ⟨first, last, count⟩)
      else none
  | _ => none

def xrevrange (keys : Keyspace) (key : Str) (range : Range) : Reply :=
  match keys key with
  | none => .entries []
  | some (.stream entries _) =>
      let inRange := entries.filter fun entry =>
        range.first.notAbove entry.id && range.last.notBelow entry.id
      let newestFirst := inRange.reverse.map fun entry =>
        (entry.id.text, entry.fields)
      match range.count with
      | none => .entries newestFirst
      | some 0 => .nil
      | some count => .entries (newestFirst.take count)
  | some _ => .error

/-! ## Lists -/

/-- `LPUSH key value`. -/
def lpush (keys : Keyspace) (key value : Str) : Keyspace × Reply :=
  match keys key with
  | none => (Function.update keys key (some (.list [value])), .integer 1)
  | some (.list elements) =>
      (Function.update keys key (some (.list (value :: elements))),
        .integer (elements.length + 1))
  | some _ => (keys, .error)

/-- `LRANGE key start stop` on the elements of a list: an index below 0 counts
from the end. -/
def lrange {Element : Type} (elements : List Element) (start stop : Int) :
    List Element :=
  let position (index : Int) : Int :=
    if index < 0 then index + elements.length else index
  (elements.take (position stop + 1).toNat).drop (position start).toNat

/-! ## The commands a caller concatenates -/

/-- A word behind the key of `XADD` that reads as an id is one, and an odd
number of words behind it is refused; `*` asks for an automatic id.  Other
words are options. -/
def exec (other : Keyspace → List Str → Keyspace × Reply) (now : Nat)
    (keys : Keyspace) (argv : List Str) : Keyspace × Reply :=
  match argv with
  | [] => other keys argv
  | command :: words =>
      if command = ascii "XADD" then
        match words with
        | key :: id :: fields =>
            if id = ascii "*" then xadd keys now key fields
            else if (parseBound 0 id).isSome ∧ fields.length % 2 = 1 then
              (keys, .error)
            else other keys argv
        | _ => (keys, .error)
      else if command = ascii "XREVRANGE" then
        match rangeOf argv with
        | none => (keys, .error)
        | some (key, range) => (keys, xrevrange keys key range)
      else other keys argv

/-! ## What a caller may rely on -/

/-- `XADD` is refused, or adds an entry at the end of the stream. -/
theorem xadd_cases (keys : Keyspace) (now : Nat) (key : Str)
    (fields : List Str) :
    xadd keys now key fields = (keys, .error) ∨
      ∃ entries last,
        ((keys key = none ∧ entries = []) ∨
          keys key = some (.stream entries last)) ∧
        fields.length % 2 = 0 ∧
        xadd keys now key fields =
          (Function.update keys key (some
            (.stream (entries ++ [⟨last.next now, fields⟩]) (last.next now))),
            .bulk (last.next now).text) := by
  by_cases refused : fields.length % 2 = 1 ∨ fields = []
  · exact .inl (by rw [xadd, if_pos refused])
  · have even : fields.length % 2 = 0 := by
      rw [not_or] at refused
      omega
    cases known : keys key with
    | none =>
        right
        refine ⟨[], ⟨0, 0⟩, .inl ⟨rfl, rfl⟩, even, ?_⟩
        simp only [xadd, if_neg refused, known, List.nil_append]
    | some value =>
        cases value with
        | stream entries last =>
            right
            refine ⟨entries, last, .inr rfl, even, ?_⟩
            simp only [xadd, if_neg refused, known]
        | list elements =>
            left
            simp only [xadd, if_neg refused, known]
        | other =>
            left
            simp only [xadd, if_neg refused, known]

/-- `LPUSH` never changes a stream. -/
theorem lpush_stream {keys : Keyspace} {key : Str} {entries : List Entry}
    {last : StreamId} (known : keys key = some (.stream entries last))
    (list value : Str) :
    (lpush keys list value).1 key = some (.stream entries last) := by
  have different : keys list ≠ some (.stream entries last) → key ≠ list := by
    intro other equality
    rw [equality] at known
    exact other known
  cases found : keys list with
  | none =>
      simp only [lpush, found]
      rw [Function.update_of_ne (different (by simp [found])), known]
  | some stored =>
      cases stored with
      | list elements =>
          simp only [lpush, found]
          rw [Function.update_of_ne (different (by simp [found])), known]
      | stream entries last =>
          simp only [lpush, found]
          exact known
      | other =>
          simp only [lpush, found]
          exact known

/-- A range from the first element on is a front of the list. -/
theorem lrange_front {Element : Type} (elements : List Element) {count : Int}
    (positive : 0 < count) :
    lrange elements 0 (count - 1) = elements.take count.toNat := by
  have last : ¬ count - 1 < 0 := by omega
  have whole : count - 1 + 1 = count := by omega
  have start : ¬ (0 : Int) < 0 := by omega
  simp only [lrange, if_neg last, if_neg start, whole]
  rfl

theorem lrange_prefix {Element : Type} (elements : List Element) (stop : Int) :
    lrange elements 0 stop <+: elements := by
  have start : ¬ (0 : Int) < 0 := by omega
  simp only [lrange, if_neg start]
  exact List.take_prefix _ _

theorem parseCount_decimal (number : Nat) :
    parseCount (decimal number) = some number := by
  have isNumber : parseNumber (decimal number) = some number := by
    simp [parseNumber, parseDecimal_decimal, Option.filter]
  obtain ⟨digit, digits, isCons⟩ :=
    List.exists_cons_of_ne_nil (decimal_ne_nil number)
  have member : digit ∈ decimal number := by simp [isCons]
  have isDigit : Byte.isDigit digit = true := isDigit_of_mem_decimal member
  have different : digit ≠ 45 := by
    intro equality
    rw [equality] at isDigit
    cases isDigit
  rw [isCons] at isNumber ⊢
  unfold parseCount
  split
  · rename_i rest equality
    exact absurd (List.cons.inj equality).1 different
  · exact isNumber

/-- No options go on behind the two ends of a range. -/
theorem parseOptions_append_bounds (options rest : List Str)
    (count : Option Nat) :
    parseOptions count (options ++ ascii "+" :: ascii "-" :: rest) = none := by
  induction options using List.twoStepInduction generalizing count with
  | nil => rfl
  | singleton name =>
      have noNumber : parseCount (ascii "+") = none := by rfl
      simp [parseOptions, noNumber]
  | cons_cons name number options skipTwo skipOne =>
      simp only [List.cons_append, parseOptions]
      split
      · cases parseCount number with
        | none => rfl
        | some count => exact skipTwo (some count)
      · rfl

/-- A well-formed `XREVRANGE` has two ends and options. -/
theorem rangeOf_eq_some {argv : List Str} {key : Str} {range : Range}
    (parsed : rangeOf argv = some (key, range)) :
    ∃ last first options,
      argv = ascii "XREVRANGE" :: key :: last :: first :: options ∧
      parseBound (2 ^ 64 - 1) last = some range.last ∧
      parseBound 0 first = some range.first ∧
      parseOptions none options = some range.count := by
  unfold rangeOf at parsed
  split at parsed
  · rename_i command key' last first options
    split at parsed
    · rename_i isRange
      simp only [Option.bind_eq_bind, Option.bind_eq_some_iff,
        Option.pure_def, Option.some.injEq, Prod.mk.injEq] at parsed
      obtain ⟨last', lastBound, first', firstBound, count, counted, rfl, rfl⟩ :=
        parsed
      exact ⟨last, first, options, by rw [isRange], lastBound, firstBound,
        counted⟩
    · cases parsed
  · cases parsed

/-- Options come in pairs. -/
theorem even_of_parseOptions {options : List Str} {start count : Option Nat}
    (parsed : parseOptions start options = some count) :
    options.length % 2 = 0 := by
  induction options using List.twoStepInduction generalizing start with
  | nil => rfl
  | singleton name => cases parsed
  | cons_cons name number options skipTwo skipOne =>
      simp only [parseOptions] at parsed
      split at parsed
      · obtain ⟨next, -, rest⟩ := Option.bind_eq_some_iff.mp parsed
        have even := skipTwo rest
        simp only [List.length_cons]
        omega
      · cases parsed

theorem parseId_isSome (first second : Nat) (text : Str) :
    (parseId first text).isSome = (parseId second text).isSome := by
  simp only [parseId]
  split
  · simp
  · rfl

/-- Whether a word reads as an id does not depend on the filled-in `seq`. -/
theorem parseBound_isSome (first second : Nat) (text : Str) :
    (parseBound first text).isSome = (parseBound second text).isSome := by
  unfold parseBound
  split
  · rfl
  · split
    · rfl
    · split
      · rw [Option.isSome_map, Option.isSome_map, parseId_isSome first second]
      · rw [Option.isSome_map, Option.isSome_map, parseId_isSome first second]

/-- An `XADD` whose words would make a range is refused. -/
theorem exec_xadd_of_range (other : Keyspace → List Str → Keyspace × Reply)
    (now : Nat) (keys : Keyspace) {words : List Str} {key : Str} {range : Range}
    (parsed : rangeOf (ascii "XREVRANGE" :: words) = some (key, range)) :
    exec other now keys (ascii "XADD" :: words) = (keys, .error) := by
  obtain ⟨last, first, options, isRange, lastBound, -, counted⟩ :=
    rangeOf_eq_some parsed
  obtain ⟨-, rfl⟩ := List.cons.inj isRange
  have isId : (parseBound 0 last).isSome = true := by
    rw [parseBound_isSome 0 (2 ^ 64 - 1), lastBound]
    rfl
  have notStar : last ≠ ascii "*" := by
    intro equality
    rw [equality] at isId
    cases isId
  have odd : (first :: options).length % 2 = 1 := by
    have even := even_of_parseOptions counted
    simp only [List.length_cons]
    omega
  simp only [exec, if_true, if_neg notStar, isId, odd, true_and]

end Redis

end ChatRoom

/-! Spans of time in whole nanoseconds, at most 2^64 seconds less one nanosecond. Arithmetic
saturates at that greatest span. -/

namespace Deferred

/-- The number of nanoseconds in the greatest span. -/
def Duration.limit : Nat := UInt64.size * 1000000000 - 1

structure Duration where
  nanos : Nat
  nanos_le : nanos ≤ Duration.limit
deriving DecidableEq

namespace Duration

def zero : Duration := ⟨0, Nat.zero_le _⟩

def greatest : Duration := ⟨limit, Nat.le_refl _⟩

def ofNanos (nanos : Nat) : Duration :=
  ⟨min nanos limit, Nat.min_le_right _ _⟩

def ofMillis (millis : Nat) : Duration :=
  ofNanos (millis * 1000000)

def ofSeconds (seconds nanos : Nat) : Duration :=
  ofNanos (seconds * 1000000000 + nanos)

def seconds (span : Duration) : Nat :=
  span.nanos / 1000000000

def subsecondNanos (span : Duration) : Nat :=
  span.nanos % 1000000000

/-- The milliseconds that a sleeper waits. A started one is waited out, and a span that goes beyond
the seconds of the clock lasts thirty years. -/
def millis (span : Duration) : Nat :=
  if span.seconds < UInt64.size / 2 - 1 then (span.nanos + 999999) / 1000000
  else 30 * 365 * 86400 * 1000

/-- A whole number of seconds and the nanoseconds of the second that has begun. -/
def ofParts (seconds : UInt64) (nanos : UInt32) (begun : nanos.toNat < 1000000000) : Duration :=
  ⟨seconds.toNat * 1000000000 + nanos.toNat, by
    have bound := seconds.toNat_lt_size
    unfold limit
    omega⟩

/-- Numbers of nanoseconds are reckoned in 128 bits. -/
abbrev Wide : Type := BitVec 128

def wide (span : Duration) : Wide :=
  .ofNat 128 span.nanos

/-- Two to the given power, if the one is not shifted out. -/
def power? (times : UInt32) : Option Wide :=
  if times < 128 then some ((1 : Wide) <<< times.toNat) else none

/-- The product, if it fits. -/
def product? (first second : Wide) : Option Wide :=
  if first.umulOverflow second then none else some (first * second)

/-- The span of so many nanoseconds, if its seconds fit a word. -/
def ofWide? (nanos : Wide) : Option Duration :=
  let seconds := nanos / 1000000000
  let begun := nanos % 1000000000
  if fits : seconds.toNat < UInt64.size ∧ begun.toNat < UInt32.size then
    some (ofParts (.ofNatLT seconds.toNat fits.1) (.ofNatLT begun.toNat fits.2) (by
      rw [UInt32.toNat_ofNatLT, BitVec.toNat_umod]
      exact Nat.mod_lt _ (by decide)))
  else none

/-- The span doubled the given number of times. Where a number does not fit on the way, the span is
the greatest. -/
def doubled (span : Duration) (times : UInt32) : Duration :=
  if span.nanos = 0 then zero
  else
    ((power? times).bind fun power => (product? span.wide power).bind ofWide?).getD greatest

/-- The digits of a fraction with the given denominator, a power of ten, without final zeros. -/
def fraction (part width : Nat) : String :=
  let digits := (Nat.toDigits 10 part).reverse
  let padded := digits ++ List.replicate (width - digits.length) '0'
  match padded.dropWhile (· = '0') with
  | [] => ""
  | kept => "." ++ String.ofList kept.reverse

/-- The span in the greatest unit that it reaches, with as many decimals as it needs. -/
def text (span : Duration) : String :=
  let n := span.nanos
  if 1000000000 ≤ n then
    toString (n / 1000000000) ++ fraction (n % 1000000000) 9 ++ "s"
  else if 1000000 ≤ n then
    toString (n / 1000000) ++ fraction (n % 1000000) 6 ++ "ms"
  else if 1000 ≤ n then
    toString (n / 1000) ++ fraction (n % 1000) 3 ++ "µs"
  else
    toString n ++ "ns"

end Duration
end Deferred

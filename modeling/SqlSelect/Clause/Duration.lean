import SqlSelect.Written
namespace SqlSelect

inductive TimeUnit where
  | millisecond | second | minute | hour | day
  deriving DecidableEq

/-- The word for a unit, in the singular only for exactly one. -/
def TimeUnit.keyword (u : TimeUnit) (count : UInt64) : Keyword :=
  match u, count == 1 with
  | .millisecond, true => .MILLISECOND
  | .millisecond, false => .MILLISECONDS
  | .second, true => .SECOND
  | .second, false => .SECONDS
  | .minute, true => .MINUTE
  | .minute, false => .MINUTES
  | .hour, true => .HOUR
  | .hour, false => .HOURS
  | .day, true => .DAY
  | .day, false => .DAYS

structure Duration where
  count : UInt64
  unit : TimeUnit
  deriving DecidableEq

namespace Duration

def seconds (count : UInt64) : Duration := ⟨count, .second⟩

def minutes (count : UInt64) : Duration := ⟨count, .minute⟩

def hours (count : UInt64) : Duration := ⟨count, .hour⟩

def keyword (d : Duration) : Keyword := d.unit.keyword d.count

def tokens (d : Duration) : Tokens := [.count d.count, .space, .keyword d.keyword]

instance : Written Duration := ⟨tokens⟩

end Duration

open Phrase

/-- How far apart the rows of two streams may lie to be joined. -/
structure Within where
  before : Duration
  /-- The limit after the row, when it is not the one before it. -/
  after? : Option Duration
  deriving DecidableEq

namespace Within

def around (d : Duration) : Within := ⟨d, none⟩

def between (before after : Duration) : Within := ⟨before, some after⟩

def tokens (w : Within) : Tokens :=
  parens (commas (w.before.tokens :: (w.after?.map Duration.tokens).toList))

instance : Written Within := ⟨tokens⟩

end Within

/-- The groups into which the rows of a stream fall. -/
inductive StreamWindow where
  | hopping (size advance : Duration)
  | session (gap : Duration)
  | tumbling (size : Duration)
  deriving DecidableEq

namespace StreamWindow

def tokens : StreamWindow → Tokens
  | .hopping size advance =>
      word .HOPPING ++ spaced (parens (commas [word .SIZE ++ spaced size.tokens,
        words [.ADVANCE, .BY] ++ spaced advance.tokens]))
  | .session gap => word .SESSION ++ spaced (parens gap.tokens)
  | .tumbling size => word .TUMBLING ++ spaced (parens (word .SIZE ++ spaced size.tokens))

instance : Written StreamWindow := ⟨tokens⟩

end StreamWindow
end SqlSelect

/-!
# Signals

What a trading rule says at a bar: get in, get out, or do nothing. A signal carries the timestamp of
the bar it answers for, so that a list of signals can be laid beside the bars; the replay that asked
for it reads the action alone.
-/

set_option autoImplicit false

namespace MarketReplay

/-- The three answers of a rule. A rule says what it wants and not whether it can be done: a buy
while a position is open, or a sell without one, is left to the replay, which ignores it. -/
inductive Action where
  | buy
  | sell
  | hold
deriving DecidableEq, Repr

/-- An action and the time of the bar it belongs to. -/
structure Signal where
  timestamp : Int
  action : Action
deriving DecidableEq, Repr

namespace Signal

def hold (timestamp : Int) : Signal := ⟨timestamp, .hold⟩

def isHold (s : Signal) : Bool := s.action == .hold

end Signal

namespace Action

def name : Action → String
  | buy => "buy"
  | sell => "sell"
  | hold => "hold"

def all : List Action := [buy, sell, hold]

def ofName? (name : String) : Option Action := all.find? fun a => a.name == name

end Action

end MarketReplay

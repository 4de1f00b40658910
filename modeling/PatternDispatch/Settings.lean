-- Settings of the library: how large a carrier may be to get a class of its
-- own, and whether call sites relink. A malformed variable counts as unset.
import PatternDispatch.Text.Blank
import PatternDispatch.Text.Numeral

namespace PatternDispatch

structure Settings where
  /-- Carriers of at most so many slots get a class of their own. -/
  specializeLimit : Nat
  /-- Whether a call site may go over to a better handle on first use. -/
  relink : Bool
deriving DecidableEq

namespace Settings

/-- The largest limit that the environment can ask for. -/
def maxLimit : Nat := 32

/-- What is in force where the variables ask for nothing. -/
def standard : Settings := ⟨maxLimit, true⟩

def limitVariable : String := "MRT_SPECIALIZE_LIMIT"
def relinkVariable : String := "MRT_RELINK_CALL_SITES"

/-- The limit that a variable asks for, cut to the largest one. A number past 64
bits is malformed. -/
def limit? (raw : String) : Option Nat := (Text.word? (Text.trimmed raw.toList)).map (min maxLimit)

def flag? (raw : String) : Option Bool :=
  let word := String.ofList ((Text.trimmed raw.toList).map Char.toLower)
  if word ∈ ["1", "true", "yes", "on"] then some true
  else if word ∈ ["0", "false", "no", "off"] then some false
  else none

/-- The settings that the variables ask for. -/
def ofVariables (lookup : String → Option String) : Settings :=
  ⟨((lookup limitVariable).bind limit?).getD standard.specializeLimit,
    ((lookup relinkVariable).bind flag?).getD standard.relink⟩

end Settings

end PatternDispatch

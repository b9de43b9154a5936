import DeletionGuard.Report

/-!
# Settings

What a run can be told beforehand: which addresses are protected and how verdicts are reported.
-/

namespace DeletionGuard

structure Settings where
  addressStart : String := defaultAddressStart
  format : Format := .text
  deriving DecidableEq, Repr

namespace Settings

/-- Values that are given take the place of those of the settings. -/
def override (s : Settings) (addressStart : Option String) (format : Option Format) : Settings :=
  ⟨addressStart.getD s.addressStart, format.getD s.format⟩

/-- The settings as diagnostics show them. -/
def describe (s : Settings) : String :=
  "Config \x7b address_prefix: " ++ Text.quote s.addressStart ++ ", format: " ++
    (match s.format with | .text => "Text" | .json => "Json") ++ " \x7d"

end Settings

end DeletionGuard

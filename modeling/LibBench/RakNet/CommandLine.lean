/-
# RakNet: the command line

`raknet/common/common.h`: the config of a program and how the command line fills
it in. `getopt` takes the command line apart; what it returns, one option after
the other, is the input here. The loop goes on as long as it knows the option,
and ends at the first one that it does not know.

The numbers are converted with `atoi` and assigned to unsigned integers of 16
and 8 bits without a check, so a config has the remainders of the numbers on the
command line, or of the largest or the smallest `long` where a number does not
fit into one.
-/

import Mathlib.Algebra.Group.Nat.Defs
import Mathlib.Algebra.Order.Group.Int
import Mathlib.Data.List.Basic

namespace LibBench.RakNet

/-- What `getopt` returns for "grc:w:h:xp:", with `optarg`. Everything that it
does not recognise is a question mark. -/
inductive CommandLineOption
  | g
  | r
  | w (optarg : List Char)
  | h (optarg : List Char)
  | c (optarg : List Char)
  | x
  | p (optarg : List Char)
  | unrecognised
  deriving DecidableEq, Repr

/-- The number that the digits at the beginning of a text make. -/
def leadingNumber (text : List Char) : ℕ :=
  (text.takeWhile Char.isDigit).foldl
    (fun value digit => 10 * value + (digit.toNat - Char.toNat '0')) 0

/-- White space in the sense of `isspace`: a blank, or one of the five control
characters from the tab to the carriage return. -/
def isSpace (char : Char) : Bool :=
  char == ' ' || (9 ≤ char.toNat && char.toNat ≤ 13)

/-- White space, a sign and digits; the rest of the text is ignored. -/
def signedNumber (text : List Char) : ℤ :=
  match text.dropWhile isSpace with
  | '-' :: number => -(leadingNumber number : ℤ)
  | '+' :: number => leadingNumber number
  | number => leadingNumber number

/-- `strtol` in base ten. A number that a `long` of 64 bits cannot hold is replaced
by the nearest one that it can. -/
def strtol (text : List Char) : ℤ :=
  max (-2 ^ 63) (min (2 ^ 63 - 1) (signedNumber text))

/-- `atoi`: what `strtol` makes of the text, cut down to an `int` of 32 bits. -/
def atoi (text : List Char) : ℤ :=
  (strtol text).bmod (2 ^ 32)

/-- `Config`. The logging directory is the current path unless it is given. -/
structure Config where
  GUI : Bool := false
  countCorrections : Bool := false
  correctionsLoggingDirectory : List Char
  mapWidth : UInt16 := 100
  mapHeight : UInt16 := 100
  playerCount : UInt8 := 2
  reliableMessaging : Bool := false
  deriving DecidableEq, Repr

/-- `parseCommandLineArguments`. -/
def parseCommandLineArguments (config : Config) : List CommandLineOption → Config
  | [] => config
  | .g :: options => parseCommandLineArguments { config with GUI := true } options
  | .r :: options => parseCommandLineArguments { config with reliableMessaging := true } options
  | .w optarg :: options =>
      parseCommandLineArguments { config with mapWidth := UInt16.ofInt (atoi optarg) } options
  | .h optarg :: options =>
      parseCommandLineArguments { config with mapHeight := UInt16.ofInt (atoi optarg) } options
  | .c optarg :: options =>
      parseCommandLineArguments { config with playerCount := UInt8.ofInt (atoi optarg) } options
  | .x :: options => parseCommandLineArguments { config with countCorrections := true } options
  | .p optarg :: options =>
      parseCommandLineArguments { config with correctionsLoggingDirectory := optarg } options
  | .unrecognised :: _ => config

namespace CommandLineOption

/-- The argument of an option for the width. -/
def width : CommandLineOption → Option (List Char)
  | .w optarg => some optarg
  | _ => none

/-- The argument of an option for the height. -/
def height : CommandLineOption → Option (List Char)
  | .h optarg => some optarg
  | _ => none

/-- The argument of an option for the player count. -/
def count : CommandLineOption → Option (List Char)
  | .c optarg => some optarg
  | _ => none

end CommandLineOption

/-- The number given with the last option of a kind, before the first option
that is not recognised. -/
def lastNumber (kind : CommandLineOption → Option (List Char)) (default : ℤ) :
    List CommandLineOption → ℤ
  | [] => default
  | .unrecognised :: _ => default
  | option :: options => lastNumber kind ((kind option).elim default atoi) options

/-- What is assigned last stays. -/
theorem parseCommandLineArguments_eq_lastNumber {τ : Type*} {field : Config → τ}
    {narrow : ℤ → τ} {kind : CommandLineOption → Option (List Char)}
    (hassign : ∀ config option, field (parseCommandLineArguments config [option]) =
      (kind option).elim (field config) fun optarg => narrow (atoi optarg))
    {config : Config} {default : ℤ} (hdefault : field config = narrow default)
    (options : List CommandLineOption) :
    field (parseCommandLineArguments config options) =
      narrow (lastNumber kind default options) := by
  induction options generalizing config default with
  | nil => exact hdefault
  | cons option options ih =>
      by_cases hknown : option = .unrecognised
      · subst hknown
        exact hdefault
      · have hone : parseCommandLineArguments config (option :: options) =
            parseCommandLineArguments (parseCommandLineArguments config [option]) options := by
          cases option <;> first | rfl | exact absurd rfl hknown
        have hlast : lastNumber kind default (option :: options) =
            lastNumber kind ((kind option).elim default atoi) options := by
          cases option <;> first | rfl | exact absurd rfl hknown
        rw [hone, hlast]
        apply ih
        rw [hassign config option]
        cases kind option with
        | none => exact hdefault
        | some optarg => rfl

section Fields

variable (currentPath : List Char) (options : List CommandLineOption)

theorem mapWidth_parseCommandLineArguments :
    (parseCommandLineArguments { correctionsLoggingDirectory := currentPath } options).mapWidth =
      UInt16.ofInt (lastNumber CommandLineOption.width 100 options) := by
  refine parseCommandLineArguments_eq_lastNumber (fun config option => ?_) rfl options
  cases option <;> rfl

theorem mapHeight_parseCommandLineArguments :
    (parseCommandLineArguments { correctionsLoggingDirectory := currentPath } options).mapHeight =
      UInt16.ofInt (lastNumber CommandLineOption.height 100 options) := by
  refine parseCommandLineArguments_eq_lastNumber (fun config option => ?_) rfl options
  cases option <;> rfl

theorem playerCount_parseCommandLineArguments :
    (parseCommandLineArguments { correctionsLoggingDirectory := currentPath } options).playerCount =
      UInt8.ofInt (lastNumber CommandLineOption.count 2 options) := by
  refine parseCommandLineArguments_eq_lastNumber (fun config option => ?_) rfl options
  cases option <;> rfl

end Fields

/-- A number that is too large becomes -1, and not its remainder. -/
example : UInt16.ofInt (atoi "18446744073709551616".toList) = 65535 ∧
    UInt16.ofInt (atoi "-9223372036854775809".toList) = 0 := by
  decide

/-- The last number of a kind counts, up to the option that is not known. -/
example : (parseCommandLineArguments { correctionsLoggingDirectory := [] }
    [.w ['6', '5', '5', '3', '7'], .c ['-', '1'], .unrecognised, .w ['5']]).mapWidth = 1 := by
  decide

end LibBench.RakNet

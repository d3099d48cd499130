/-
# Yojimbo: the options of the server

`parseCommandLineArguments` of `yojimbo/server.cpp` on the words of a command line. The
loop asks `getopt` for one option after the other and goes on after each one that it
knows. The `switch` has no default: an option that the server does not know ends the
loop in the same way as the end of the options does, and what comes after it is not
looked at.

So the config is made by the options before the first unknown one. It is the config
that the command line asks for when nothing of consequence comes later, and it does not
depend on the order when no option is unknown or none makes a difference.
-/

import Mathlib.Data.List.Perm.Basic
import Mathlib.Data.List.TakeWhile
import LibBench.Math.Getopt
import LibBench.Yojimbo.WireRange

namespace LibBench.Yojimbo

open LibBench.Math

/-- The server's `GameConfig` with the fields that nothing reads. -/
structure CompleteConfig extends GameConfig where
  GUI : Bool := false
  playerCount : UInt8 := 2
  deriving DecidableEq, Repr

/-- The loop of `parseCommandLineArguments`, over what `getopt` returns. -/
def parseOptions (config : CompleteConfig) : List CommandLineOption → CompleteConfig
  | [] => config
  | .g :: options => parseOptions { config with GUI := true } options
  | .r :: options => parseOptions { config with reliableMessaging := true } options
  | .w optarg :: options =>
      parseOptions { config with mapWidth := UInt16.ofInt (RakNet.atoi optarg) } options
  | .h optarg :: options =>
      parseOptions { config with mapHeight := UInt16.ofInt (RakNet.atoi optarg) } options
  | .unrecognised :: _ => config

/-- The fields that are read are those of the shorter config. -/
theorem toGameConfig_parseOptions (config : CompleteConfig) (options : List CommandLineOption) :
    (parseOptions config options).toGameConfig =
      parseCommandLineArguments config.toGameConfig options := by
  induction options generalizing config with
  | nil => rfl
  | cons option options ih =>
      cases option with
      | g => exact ih { config with GUI := true }
      | r => exact ih { config with reliableMessaging := true }
      | w optarg => exact ih { config with mapWidth := UInt16.ofInt (RakNet.atoi optarg) }
      | h optarg => exact ih { config with mapHeight := UInt16.ofInt (RakNet.atoi optarg) }
      | unrecognised => rfl

/-- "grw:h:". -/
def optstring : List Char := ['g', 'r', 'w', ':', 'h', ':']

/-- The case of the `switch` for what `getopt` returns. -/
def CommandLineOption.ofReturned : Getopt.Returned → CommandLineOption
  | .option 'g' _ => .g
  | .option 'r' _ => .r
  | .option 'w' (some optarg) => .w optarg
  | .option 'h' (some optarg) => .h optarg
  | .option _ _ | .questionMark _ => .unrecognised

/-- `parseCommandLineArguments` on the words of a command line, without the name of the
program. -/
def parseArgv (argv : List (List Char)) : CompleteConfig :=
  parseOptions {} ((Getopt.getopt optstring argv).map CommandLineOption.ofReturned)

/-- An option that the server does not know, with the words behind it that are not
options themselves. -/
structure UnknownOption where
  letter : Char
  operands : List (List Char)
  unknown : Getopt.takesArgument optstring letter = none
  notDash : letter ≠ '-'
  notOptions : ∀ word ∈ operands, Getopt.isOperand word = true
  deriving DecidableEq

/-- The words of one option. -/
inductive OptionGroup
  | g
  | r
  | w (n : List Char)
  | h (n : List Char)
  | unknown (option : UnknownOption)
  deriving DecidableEq

namespace OptionGroup

/-- The words. -/
def words : OptionGroup → List (List Char)
  | g => [['-', 'g']]
  | r => [['-', 'r']]
  | w n => [['-', 'w'], n]
  | h n => [['-', 'h'], n]
  | unknown option => ['-', option.letter] :: option.operands

/-- The letter of the option. -/
def letter : OptionGroup → Char
  | g => 'g'
  | r => 'r'
  | w _ => 'w'
  | h _ => 'h'
  | unknown option => option.letter

/-- The server knows the option. -/
def isKnown : OptionGroup → Bool
  | g | r | w _ | h _ => true
  | unknown _ => false

/-- The case of the `switch`. -/
def toOption : OptionGroup → CommandLineOption
  | g => .g
  | r => .r
  | w n => .w n
  | h n => .h n
  | unknown _ => .unrecognised

/-- The number given for the width. -/
def width : OptionGroup → Option (List Char)
  | w n => some n
  | g | r | h _ | unknown _ => none

/-- The number given for the height. -/
def height : OptionGroup → Option (List Char)
  | h n => some n
  | g | r | w _ | unknown _ => none

/-- What an option does to the config. -/
def apply (config : CompleteConfig) : OptionGroup → CompleteConfig
  | g => { config with GUI := true }
  | r => { config with reliableMessaging := true }
  | w n => { config with mapWidth := UInt16.ofInt (RakNet.atoi n) }
  | h n => { config with mapHeight := UInt16.ofInt (RakNet.atoi n) }
  | unknown _ => config

/-- The option asks for what the config is without it. -/
def IsDefault : OptionGroup → Prop
  | g | r => False
  | w n | h n => UInt16.ofInt (RakNet.atoi n) = 100
  | unknown _ => True

/-- `getopt` finds the options of the groups. -/
theorem getopt_words (groups : List OptionGroup) :
    (Getopt.getopt optstring (groups.flatMap words)).map CommandLineOption.ofReturned =
      groups.map toOption := by
  induction groups with
  | nil => rfl
  | cons group groups ih =>
      have hdash {letter : Char} (hknown : letter ∈ ['g', 'r', 'w', 'h']) : letter ≠ '-' := by
        rintro rfl
        exact absurd hknown (by decide)
      rw [List.flatMap_cons, List.map_cons, ← ih]
      cases group with
      | g => exact congrArg _ (Getopt.getopt_flag rfl (hdash (by decide)) _)
      | r => exact congrArg _ (Getopt.getopt_flag rfl (hdash (by decide)) _)
      | w n => exact congrArg _ (Getopt.getopt_withArgument rfl (hdash (by decide)) n _)
      | h n => exact congrArg _ (Getopt.getopt_withArgument rfl (hdash (by decide)) n _)
      | unknown option =>
          rw [words, List.cons_append, Getopt.getopt_questionMark option.unknown option.notDash,
            Getopt.getopt_operands option.notOptions]
          rfl

/-- The config is made by the options before the first unknown one. -/
theorem parseArgv_words (groups : List OptionGroup) :
    parseArgv (groups.flatMap words) = (groups.takeWhile isKnown).foldl apply {} := by
  have hparse (config : CompleteConfig) :
      parseOptions config (groups.map toOption) =
        (groups.takeWhile isKnown).foldl apply config := by
    induction groups generalizing config with
    | nil => rfl
    | cons group groups ih =>
        cases group with
        | g | r | w n | h n => exact ih _
        | unknown option => rfl
  rw [parseArgv, getopt_words, hparse]

/-- The number that the last option with an argument gives, and the default when there is
none. -/
def lastGiven (argument : OptionGroup → Option (List Char)) (default : UInt16)
    (groups : List OptionGroup) : UInt16 :=
  ((groups.filterMap argument).getLast?).elim default fun n => UInt16.ofInt (RakNet.atoi n)

theorem lastGiven_cons (argument : OptionGroup → Option (List Char)) (default : UInt16)
    (group : OptionGroup) (groups : List OptionGroup) :
    lastGiven argument default (group :: groups) =
      lastGiven argument ((argument group).elim default fun n => UInt16.ofInt (RakNet.atoi n))
        groups := by
  unfold lastGiven
  cases hgiven : argument group with
  | none => rw [List.filterMap_cons_none hgiven, Option.elim_none]
  | some n =>
      rw [List.filterMap_cons_some hgiven, List.getLast?_cons, Option.elim_some, Option.elim_some]
      cases (groups.filterMap argument).getLast? <;> rfl

/-- What an option assigns stays until the next one assigns it. -/
theorem foldl_apply_eq_lastGiven (field : CompleteConfig → UInt16)
    (argument : OptionGroup → Option (List Char))
    (hassign : ∀ config group, field (apply config group) =
      (argument group).elim (field config) fun n => UInt16.ofInt (RakNet.atoi n))
    (config : CompleteConfig) (groups : List OptionGroup) :
    field (groups.foldl apply config) = lastGiven argument (field config) groups := by
  induction groups generalizing config with
  | nil => rfl
  | cons group groups ih => rw [List.foldl_cons, ih, hassign, lastGiven_cons]

theorem mapWidth_parseArgv (groups : List OptionGroup) :
    (parseArgv (groups.flatMap words)).mapWidth =
      lastGiven width 100 (groups.takeWhile isKnown) := by
  rw [parseArgv_words]
  refine foldl_apply_eq_lastGiven (·.mapWidth) width (fun config group => ?_) {} _
  cases group <;> rfl

theorem mapHeight_parseArgv (groups : List OptionGroup) :
    (parseArgv (groups.flatMap words)).mapHeight =
      lastGiven height 100 (groups.takeWhile isKnown) := by
  rw [parseArgv_words]
  refine foldl_apply_eq_lastGiven (·.mapHeight) height (fun config group => ?_) {} _
  cases group <;> rfl

theorem reliableMessaging_foldl_apply (config : CompleteConfig) (groups : List OptionGroup) :
    (groups.foldl apply config).reliableMessaging = true ↔
      config.reliableMessaging = true ∨ .r ∈ groups := by
  induction groups generalizing config with
  | nil => simp
  | cons group groups ih => cases group <;> simp [ih, apply]

theorem reliableMessaging_parseArgv (groups : List OptionGroup) :
    (parseArgv (groups.flatMap words)).reliableMessaging = true ↔
      .r ∈ groups.takeWhile isKnown := by
  rw [parseArgv_words, reliableMessaging_foldl_apply]
  exact or_iff_right Bool.false_ne_true

/-- An option asks for the default when it leaves the default config as it is. -/
theorem isDefault_iff {group : OptionGroup} : group.IsDefault ↔ apply {} group = {} := by
  cases group <;> simp [IsDefault, apply]

theorem foldl_apply_of_isDefault {groups : List OptionGroup}
    (h : ∀ group ∈ groups, group.IsDefault) : groups.foldl apply {} = {} := by
  induction groups with
  | nil => rfl
  | cons group groups ih =>
      obtain ⟨hgroup, hrest⟩ := List.forall_mem_cons.mp h
      rw [List.foldl_cons, isDefault_iff.mp hgroup, ih hrest]

theorem isKnown_of_not_isDefault {group : OptionGroup} (h : ¬ group.IsDefault) :
    group.isKnown = true := by
  cases group with
  | g | r | w _ | h _ => rfl
  | unknown _ => exact absurd trivial h

theorem parseArgv_of_isDefault {groups : List OptionGroup}
    (h : ∀ group ∈ groups, group.IsDefault) : parseArgv (groups.flatMap words) = {} := by
  rw [parseArgv_words]
  exact foldl_apply_of_isDefault fun group hgroup =>
    h group ((List.takeWhile_prefix _).subset hgroup)

/-- Different options do not assign the same field. -/
theorem apply_comm {first second : OptionGroup} (h : first.letter ≠ second.letter)
    (config : CompleteConfig) :
    apply (apply config first) second = apply (apply config second) first := by
  cases first <;> cases second <;> first | rfl | exact absurd rfl h

theorem foldl_apply_of_perm {groups other : List OptionGroup} (hperm : other.Perm groups)
    (hnodup : (groups.map letter).Nodup) (config : CompleteConfig) :
    other.foldl apply config = groups.foldl apply config := by
  refine hperm.foldl_eq' (fun first hfirst second hsecond config => ?_) config
  by_cases hletter : first.letter = second.letter
  · rw [List.inj_on_of_nodup_map hnodup (hperm.mem_iff.mp hfirst) (hperm.mem_iff.mp hsecond)
      hletter]
  · exact apply_comm hletter config

theorem parseArgv_of_isKnown {groups other : List OptionGroup} (hperm : other.Perm groups)
    (hnodup : (groups.map letter).Nodup) (hknown : ∀ group ∈ groups, group.isKnown = true) :
    parseArgv (other.flatMap words) = parseArgv (groups.flatMap words) := by
  have hother : ∀ group ∈ other, group.isKnown = true :=
    fun group hgroup => hknown group (hperm.mem_iff.mp hgroup)
  rw [parseArgv_words, parseArgv_words, List.takeWhile_eq_self_iff.mpr hknown,
    List.takeWhile_eq_self_iff.mpr hother]
  exact foldl_apply_of_perm hperm hnodup {}

/-- An unknown option can be moved before an option that makes a difference, and behind it. -/
theorem isDefault_of_reordered {groups : List OptionGroup} {unknown known : OptionGroup}
    (hunknown : unknown ∈ groups) (hnot : unknown.isKnown = false) (hknown : known ∈ groups)
    (his : known.isKnown = true)
    (h : ∀ other : List OptionGroup, other.Perm groups →
      parseArgv (other.flatMap words) = parseArgv (groups.flatMap words)) : known.IsDefault := by
  have hne : known ≠ unknown := by
    rintro rfl
    exact absurd his (by simp [hnot])
  have hbefore : (unknown :: known :: (groups.erase unknown).erase known).Perm groups :=
    ((List.perm_cons_erase ((List.mem_erase_of_ne hne).mpr hknown)).symm.cons unknown).trans
      (List.perm_cons_erase hunknown).symm
  have hbehind := h _ ((List.Perm.swap unknown known _).trans hbefore)
  rw [← h _ hbefore, parseArgv_words, parseArgv_words, List.takeWhile_cons_of_pos his,
    List.takeWhile_cons_of_neg (by simp [hnot]), List.takeWhile_cons_of_neg (by simp [hnot])]
    at hbehind
  exact isDefault_iff.mpr hbehind

end OptionGroup

open OptionGroup

/-- The config that the options ask for, in whatever order they come when none is
repeated. -/
structure FollowsOptions (groups : List OptionGroup) : Prop where
  reliableMessaging : (parseArgv (groups.flatMap words)).reliableMessaging = true ↔ .r ∈ groups
  mapWidth : (parseArgv (groups.flatMap words)).mapWidth = lastGiven width 100 groups
  mapHeight : (parseArgv (groups.flatMap words)).mapHeight = lastGiven height 100 groups
  reordered : (groups.map letter).Nodup → ∀ other : List OptionGroup, other.Perm groups →
    parseArgv (other.flatMap words) = parseArgv (groups.flatMap words)

/-- Nothing after the first unknown option is missed: what is given there has been given
before, or is the default. -/
structure LosesNothing (groups : List OptionGroup) : Prop where
  reliable : .r ∈ groups → .r ∈ groups.takeWhile isKnown
  width : lastGiven width 100 (groups.takeWhile isKnown) = lastGiven width 100 groups
  height : lastGiven height 100 (groups.takeWhile isKnown) = lastGiven height 100 groups

/-- The server does what the options ask for when nothing comes too late, and for options
in any order only when all of them are known or all of them ask for the default. -/
theorem followsOptions_iff (groups : List OptionGroup) :
    FollowsOptions groups ↔
      LosesNothing groups ∧ ((groups.map letter).Nodup →
        (∀ group ∈ groups, group.isKnown = true) ∨ ∀ group ∈ groups, group.IsDefault) := by
  constructor
  · intro hfollows
    refine ⟨⟨fun hr => ?_, ?_, ?_⟩, fun hnodup => ?_⟩
    · exact (reliableMessaging_parseArgv groups).mp (hfollows.reliableMessaging.mpr hr)
    · exact (mapWidth_parseArgv groups).symm.trans hfollows.mapWidth
    · exact (mapHeight_parseArgv groups).symm.trans hfollows.mapHeight
    · by_contra hneither
      push Not at hneither
      obtain ⟨⟨unknown, hunknown, hnot⟩, known, hknown, hdifferent⟩ := hneither
      exact hdifferent (isDefault_of_reordered hunknown (Bool.eq_false_iff.mpr hnot) hknown
        (isKnown_of_not_isDefault hdifferent) (hfollows.reordered hnodup))
  · rintro ⟨hloses, horder⟩
    refine ⟨?_, ?_, ?_, fun hnodup other hperm => ?_⟩
    · exact (reliableMessaging_parseArgv groups).trans
        ⟨fun hr => (List.takeWhile_prefix _).subset hr, hloses.reliable⟩
    · exact (mapWidth_parseArgv groups).trans hloses.width
    · exact (mapHeight_parseArgv groups).trans hloses.height
    · obtain hknown | hdefault := horder hnodup
      · exact parseArgv_of_isKnown hperm hnodup hknown
      · rw [parseArgv_of_isDefault hdefault,
          parseArgv_of_isDefault fun group hgroup => hdefault group (hperm.mem_iff.mp hgroup)]

/-- With `-c 3 -r`, as the scripts start the server, the messages are not reliable. -/
theorem reliable_after_count_is_lost :
    ∃ count : UnknownOption,
      [OptionGroup.unknown count, .r].flatMap words = [['-', 'c'], ['3'], ['-', 'r']] ∧
        (parseArgv [['-', 'c'], ['3'], ['-', 'r']]).reliableMessaging = false ∧
        ¬ FollowsOptions [OptionGroup.unknown count, .r] := by
  refine ⟨⟨'c', [['3']], rfl, by decide, by decide⟩, rfl, by decide, fun hfollows => ?_⟩
  have hreliable := hfollows.reliableMessaging.mpr (by decide)
  exact absurd hreliable (by decide)

end LibBench.Yojimbo

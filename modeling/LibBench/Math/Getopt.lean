/-
# Taking a command line apart

`getopt` goes through the words of a command line and returns the options it finds,
one after the other. A word that begins with a dash is made of letters. The
specification says which letters are options and which of these take an argument; the
argument is what follows in the word, or the next word. For any other letter a
question mark is returned.

Words that are not options are passed over, as if they came last, and two dashes end
the options.
-/

import Mathlib.Data.List.Basic

namespace LibBench.Math

namespace Getopt

/-- What is returned: an option with `optarg`, or a question mark with `optopt`. -/
inductive Returned
  | option (letter : Char) (optarg : Option (List Char))
  | questionMark (letter : Char)
  deriving DecidableEq, Repr

/-- Whether an option takes an argument, which is what a colon after its letter says;
none for what is not an option. -/
def takesArgument : List Char → Char → Option Bool
  | [], _ => none
  | first :: rest, letter =>
      if first = letter ∧ letter ≠ ':' then some (decide (rest.head? = some ':'))
      else takesArgument rest letter

/-- The letters of a word: what is returned for them, and the letter that waits for the
next word as its argument. -/
def letters (optstring : List Char) : List Char → List Returned × Option Char
  | [] => ([], none)
  | letter :: rest =>
      match takesArgument optstring letter with
      | none =>
          let (returned, waiting) := letters optstring rest
          (.questionMark letter :: returned, waiting)
      | some false =>
          let (returned, waiting) := letters optstring rest
          (.option letter none :: returned, waiting)
      | some true =>
          if rest = [] then ([], some letter) else ([.option letter (some rest)], none)

/-- The words, with the letter that waits for its argument. An argument that is missing
makes a question mark. -/
def getoptFrom (optstring : List Char) : Option Char → List (List Char) → List Returned
  | none, [] => []
  | some letter, [] => [.questionMark letter]
  | some letter, word :: words => .option letter (some word) :: getoptFrom optstring none words
  | none, word :: words =>
      match word with
      | ['-', '-'] => []
      | '-' :: letter :: rest =>
          let (returned, waiting) := letters optstring (letter :: rest)
          returned ++ getoptFrom optstring waiting words
      | _ => getoptFrom optstring none words

/-- What `getopt` returns until it returns -1. -/
def getopt (optstring : List Char) (argv : List (List Char)) : List Returned :=
  getoptFrom optstring none argv

/-- A word that is not an option: it has no dash, or nothing but a dash. -/
def isOperand : List Char → Bool
  | '-' :: _ :: _ => false
  | _ => true

variable {optstring : List Char} {letter : Char} {words : List (List Char)}

theorem getopt_dash (hletter : letter ≠ '-') (words : List (List Char)) :
    getopt optstring (['-', letter] :: words) =
      (letters optstring [letter]).1 ++
        getoptFrom optstring (letters optstring [letter]).2 words := by
  rw [getopt, getoptFrom]
  exact fun hdash _ => hletter hdash

theorem getopt_flag (h : takesArgument optstring letter = some false) (hletter : letter ≠ '-')
    (words : List (List Char)) :
    getopt optstring (['-', letter] :: words) = .option letter none :: getopt optstring words := by
  rw [getopt_dash hletter, letters, h]
  rfl

theorem getopt_withArgument (h : takesArgument optstring letter = some true)
    (hletter : letter ≠ '-') (optarg : List Char) (words : List (List Char)) :
    getopt optstring (['-', letter] :: optarg :: words) =
      .option letter (some optarg) :: getopt optstring words := by
  rw [getopt_dash hletter, letters, h]
  rfl

theorem getopt_questionMark (h : takesArgument optstring letter = none) (hletter : letter ≠ '-')
    (words : List (List Char)) :
    getopt optstring (['-', letter] :: words) = .questionMark letter :: getopt optstring words := by
  rw [getopt_dash hletter, letters, h]
  rfl

/-- Words that are not options are passed over. -/
theorem getopt_operands {operands : List (List Char)}
    (h : ∀ word ∈ operands, isOperand word = true) (words : List (List Char)) :
    getopt optstring (operands ++ words) = getopt optstring words := by
  induction operands with
  | nil => rfl
  | cons word operands ih =>
      obtain ⟨hword, hrest⟩ := List.forall_mem_cons.mp h
      rw [List.cons_append, getopt, getoptFrom]
      · exact ih hrest
      · rintro rfl
        cases hword
      · rintro letter rest rfl
        cases hword

end Getopt

end LibBench.Math

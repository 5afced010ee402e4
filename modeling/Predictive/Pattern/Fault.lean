import Predictive.Datum
import Predictive.LineCounter
import Predictive.Pattern.Basic

/-!
# Faults of patterns

What can be wrong with the notation of a pattern, with the message for each fault. A flaw stands at a
position in the notation, or it concerns the pattern as a whole.
-/

set_option autoImplicit false

namespace Predictive

/-- What is wrong in the notation of a pattern. -/
inductive PatternFlaw where
  /-- A backslash at the end. -/
  | looseBackslash
  | badEscape (escape : String)
  | incompleteEscape (escape : String)
  | octalTooLarge (escape : String)
  /-- Something has to follow and does not. -/
  | missing (what : String)
  | unterminatedName (terminator : Char)
  | unknownCharacterName (name : String)
  | openGroup
  /-- A look-behind refers to a group inside itself. -/
  | groupInLookBehind
  | noSuchGroup (number : Nat)
  | unterminatedSet
  | badRange (first last : String)
  | fewerThanLeast
  | nothingToRepeat
  | repeatedRepeat
  | unexpectedEnd
  | unknownExtension (text : String)
  | badGroupName (name : String)
  | unknownGroupName (name : String)
  | redefinedGroup (name : String) (number before : Nat)
  | groupZero
  | tooManyBranches
  | unterminatedGroup
  | unterminatedComment
  | unbalanced
  | lateFlags
  | localeFlag
  | conflictingFlags
  | unknownFlag
  /-- A flag of the whole pattern is turned on (or off) for a part. -/
  | globalFlag (on : Bool)
  /-- One of the flags that choose an alphabet is turned off. -/
  | alphabetFlagOff
  | flagOnAndOff
  /-- What stands before can have different lengths. -/
  | looseLookBehind
  | wideLookBehind
  /-- A repetition in a pattern that may not have one. -/
  | repetitionInTemplate (mode : RepeatMode)
deriving Repr, DecidableEq

namespace PatternFlaw

/-- The name of a kind of repetition in messages. -/
def modeName : RepeatMode → String
  | .greedy => "MAX_REPEAT"
  | .sparing => "MIN_REPEAT"
  | .possessive => "POSSESSIVE_REPEAT"

/-- The message for a flaw. -/
def message : PatternFlaw → String
  | .looseBackslash => "bad escape (end of pattern)"
  | .badEscape escape => "bad escape " ++ escape
  | .incompleteEscape escape => "incomplete escape " ++ escape
  | .octalTooLarge escape => "octal escape value " ++ escape ++ " outside of range 0-0o377"
  | .missing what => "missing " ++ what
  | .unterminatedName terminator =>
      "missing " ++ String.singleton terminator ++ ", unterminated name"
  | .unknownCharacterName name => "undefined character name " ++ Text.quote name
  | .openGroup => "cannot refer to an open group"
  | .groupInLookBehind => "cannot refer to group defined in the same lookbehind subpattern"
  | .noSuchGroup number => "invalid group reference " ++ Datum.natText number
  | .unterminatedSet => "unterminated character set"
  | .badRange first last => "bad character range " ++ first ++ "-" ++ last
  | .fewerThanLeast => "min repeat greater than max repeat"
  | .nothingToRepeat => "nothing to repeat"
  | .repeatedRepeat => "multiple repeat"
  | .unexpectedEnd => "unexpected end of pattern"
  | .unknownExtension text => "unknown extension ?" ++ text
  | .badGroupName name => "bad character in group name " ++ Text.quote name
  | .unknownGroupName name => "unknown group name " ++ Text.quote name
  | .redefinedGroup name number before =>
      "redefinition of group name " ++ Text.quote name ++ " as group " ++ Datum.natText number ++
        "; was group " ++ Datum.natText before
  | .groupZero => "bad group number"
  | .tooManyBranches => "conditional backref with more than two branches"
  | .unterminatedGroup => "missing ), unterminated subpattern"
  | .unterminatedComment => "missing ), unterminated comment"
  | .unbalanced => "unbalanced parenthesis"
  | .lateFlags => "global flags not at the start of the expression"
  | .localeFlag => "bad inline flags: cannot use 'L' flag with a str pattern"
  | .conflictingFlags => "bad inline flags: flags 'a', 'u' and 'L' are incompatible"
  | .unknownFlag => "unknown flag"
  | .globalFlag on =>
      "bad inline flags: cannot turn " ++ (if on then "on" else "off") ++ " global flag"
  | .alphabetFlagOff => "bad inline flags: cannot turn off flags 'a', 'u' and 'L'"
  | .flagOnAndOff => "bad inline flags: flag turned on and off"
  | .looseLookBehind => "look-behind requires fixed-width pattern"
  | .wideLookBehind => "looks too much behind"
  | .repetitionInTemplate mode => "internal: unsupported template operator " ++ modeName mode

end PatternFlaw

/-- Why a pattern cannot be read. -/
inductive PatternFault where
  /-- The notation has a flaw, at a position or as a whole. -/
  | flaw (reason : PatternFlaw) (position : Option Nat)
  /-- The flags that come with the pattern do not go together. -/
  | badFlags
  /-- A number of rounds is beyond all bounds. -/
  | hugeRepeat
deriving Repr, DecidableEq

namespace PatternFault

/-- The message for a flaw in a notation. A position is told as such and, in a notation of several
lines, by line and column as well. -/
def describe (written : List Char) (reason : PatternFlaw) (position : Option Nat) : String :=
  match position with
  | none => reason.message
  | some p =>
      let place := LineCounter.start.feed (written.take p) true
      reason.message ++ " at position " ++ Datum.natText p ++
        (if '\n' ∈ written then
          " (line " ++ Datum.natText place.line ++ ", column " ++ Datum.natText place.column ++ ")"
        else "")

end PatternFault

end Predictive

import Anneal.Decimal.Reading

/-!
# Signals

The signals by number: their names, what is said of a program that one of them killed, and what they
do to a program that has made no arrangements for them.
-/

namespace Anneal.Shell

structure Signal where
  number : Nat
  name : String
  description : String

def signals : List Signal :=
  [⟨1, "HUP", "Hangup"⟩, ⟨2, "INT", "Interrupt"⟩, ⟨3, "QUIT", "Quit"⟩,
   ⟨4, "ILL", "Illegal instruction"⟩, ⟨5, "TRAP", "Trace/breakpoint trap"⟩,
   ⟨6, "ABRT", "Aborted"⟩, ⟨7, "BUS", "Bus error"⟩, ⟨8, "FPE", "Floating point exception"⟩,
   ⟨9, "KILL", "Killed"⟩, ⟨10, "USR1", "User defined signal 1"⟩,
   ⟨11, "SEGV", "Segmentation fault"⟩, ⟨12, "USR2", "User defined signal 2"⟩,
   ⟨13, "PIPE", "Broken pipe"⟩, ⟨14, "ALRM", "Alarm clock"⟩, ⟨15, "TERM", "Terminated"⟩,
   ⟨16, "STKFLT", "Stack fault"⟩, ⟨17, "CHLD", "Child exited"⟩, ⟨18, "CONT", "Continued"⟩,
   ⟨19, "STOP", "Stopped (signal)"⟩, ⟨20, "TSTP", "Stopped"⟩, ⟨21, "TTIN", "Stopped (tty input)"⟩,
   ⟨22, "TTOU", "Stopped (tty output)"⟩, ⟨23, "URG", "Urgent I/O condition"⟩,
   ⟨24, "XCPU", "CPU time limit exceeded"⟩, ⟨25, "XFSZ", "File size limit exceeded"⟩,
   ⟨26, "VTALRM", "Virtual timer expired"⟩, ⟨27, "PROF", "Profiling timer expired"⟩,
   ⟨28, "WINCH", "Window changed"⟩, ⟨29, "IO", "I/O possible"⟩, ⟨30, "PWR", "Power failure"⟩,
   ⟨31, "SYS", "Bad system call"⟩]

namespace Signal

def greatest : Nat := 64

def exit : Nat := 0

def child : Nat := 17

def ofNumber? (n : Nat) : Option Signal := signals.find? fun s => s.number = n

def nameOf (n : Nat) : String :=
  if n = exit then "EXIT"
  else match ofNumber? n with
    | some s => s.name
    | none => toString n

def describe (n : Nat) : String :=
  match ofNumber? n with
  | some s => s.description
  | none => s!"Real-time signal {n - 34}"

def number? (text : String) : Option Nat :=
  let cs := text.toList
  if !cs.isEmpty && cs.all Decimal.isDigit then
    let n := Decimal.natOfDigits cs
    if n ≤ greatest then some n else none
  else if text.toUpper = "EXIT" then some exit
  else (signals.find? fun s => s.name = text.toUpper).map (·.number)

def harmless : List Nat := [17, 18, 23, 28]

def stopping : List Nat := [19, 20, 21, 22]

def absolute : List Nat := [9, 19]

def silent : List Nat := [2, 13]

end Signal
end Anneal.Shell

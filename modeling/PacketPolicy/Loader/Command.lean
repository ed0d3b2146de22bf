import PacketPolicy.Failure
import PacketPolicy.Text.Blank
import PacketPolicy.Text.Utf8

namespace PacketPolicy

/-!
# The loader

The program that hands a script to the packet filter: a command line, to which the options
for loading or for checking are added, and which reads the script from its input.

* `Loader.parse` -- the program and its first arguments, from a command line;
* `Loader.outcome` -- what the end of the program means.
-/

/-- A program and its first arguments. -/
structure Loader where
  program : String
  arguments : List String
deriving DecidableEq, Repr, Inhabited

/-- How a program ended. -/
inductive ExitStatus where
  | exited (code : Nat)
  | killed (signal : Nat)
deriving DecidableEq, Repr, Inhabited

/-- The names of signals. -/
def signalName? : Nat → Option String
  | 1 => some "SIGHUP"
  | 2 => some "SIGINT"
  | 3 => some "SIGQUIT"
  | 4 => some "SIGILL"
  | 5 => some "SIGTRAP"
  | 6 => some "SIGABRT"
  | 7 => some "SIGBUS"
  | 8 => some "SIGFPE"
  | 9 => some "SIGKILL"
  | 10 => some "SIGUSR1"
  | 11 => some "SIGSEGV"
  | 12 => some "SIGUSR2"
  | 13 => some "SIGPIPE"
  | 14 => some "SIGALRM"
  | 15 => some "SIGTERM"
  | 16 => some "SIGSTKFLT"
  | 17 => some "SIGCHLD"
  | 18 => some "SIGCONT"
  | 19 => some "SIGSTOP"
  | 20 => some "SIGTSTP"
  | 21 => some "SIGTTIN"
  | 22 => some "SIGTTOU"
  | 23 => some "SIGURG"
  | 24 => some "SIGXCPU"
  | 25 => some "SIGXFSZ"
  | 26 => some "SIGVTALRM"
  | 27 => some "SIGPROF"
  | 28 => some "SIGWINCH"
  | 29 => some "SIGIO"
  | 30 => some "SIGPWR"
  | 31 => some "SIGSYS"
  | _ => none

/-- How a program ended, in words. -/
def ExitStatus.text : ExitStatus → String
  | exited code => "exit status: " ++ toString code
  | killed signal =>
      match signalName? signal with
      | some name => "signal: " ++ toString signal ++ " (" ++ name ++ ")"
      | none => "signal: " ++ toString signal

/-- The code of a program that ended by itself. -/
def ExitStatus.code? : ExitStatus → Option Nat
  | exited code => some code
  | killed _ => none

namespace Loader

/-- The loader where none is named. -/
def standard : Loader := ⟨"nft", []⟩

/-- The words of a command line; a blank one stands for the standard loader. -/
def parse (commandLine : String) : Loader :=
  match Text.words commandLine with
  | program :: arguments => ⟨program, arguments⟩
  | [] => standard

/-- What the loader is to do with the script. -/
inductive Task where
  | load
  /-- Look at the script without loading it. -/
  | check
deriving DecidableEq, Repr, Inhabited

/-- The options of a task. -/
def Task.options : Task → List String
  | load => ["-f", "-"]
  | check => ["--check", "-f", "-"]

/-- A line of the loader's report without what it puts in front of every message. -/
def cleaned (line : String) : String :=
  Text.withoutLeading "nft: " (Text.withoutLeading "Error: " line)

/-- The first message of the loader's report, or how it ended where there is none. -/
def reason (loader : Loader) (status : ExitStatus) (report : String) : String :=
  match Text.trimmedLines report with
  | line :: _ => cleaned line
  | [] => loader.program ++ " exited with " ++ status.text

/-- What the end of the loader means: it succeeded if it exited with code zero.  Its
report may be any bytes. -/
def outcome (loader : Loader) (status : ExitStatus) (reportBytes : ByteArray) :
    Except Failure Unit :=
  if status = .exited 0 then .ok ()
  else
    let report := Text.ofBytesLossy reportBytes
    .error
      (.loader (loader.reason status report) (if Text.isBlankText report then none else some report)
        status.code?)

end Loader
end PacketPolicy

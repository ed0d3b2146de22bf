namespace PacketPolicy
namespace Host

/-!
# Faults of the host

Why a file or a program cannot be used, with the number by which the system knows the
reason, if the system was asked at all.

* `Fault.message` -- the wording of a fault.
-/

/-- Why a file or a program cannot be used. -/
inductive Fault where
  | notFound
  /-- A part of the path that should be a directory is something else. -/
  | notDirectory
  /-- A directory stands where a file is wanted. -/
  | isDirectory
  /-- Something stands in the place already. -/
  | alreadyThere
  /-- The place is one that cannot be given to something else. -/
  | busy
  /-- A name in the path, or the whole path, has too many bytes. -/
  | nameTooLong
  /-- The file may not be run. -/
  | forbidden
  /-- The path is none that the system could know. -/
  | badArgument
  /-- The path has a character in it that ends texts for the system. -/
  | brokenPath
  /-- The command line has such a character in it. -/
  | brokenCommand
  /-- The bytes of the file are no text. -/
  | notText
  /-- Another reason, in the words of the system. -/
  | other (words : String)
deriving DecidableEq, Repr, Inhabited

/-- The wording of a fault. -/
def Fault.message : Fault → String
  | .notFound => "No such file or directory (os error 2)"
  | .forbidden => "Permission denied (os error 13)"
  | .busy => "Device or resource busy (os error 16)"
  | .alreadyThere => "File exists (os error 17)"
  | .notDirectory => "Not a directory (os error 20)"
  | .isDirectory => "Is a directory (os error 21)"
  | .badArgument => "Invalid argument (os error 22)"
  | .nameTooLong => "File name too long (os error 36)"
  | .brokenPath => "file name contained an unexpected NUL byte"
  | .brokenCommand => "nul byte found in provided data"
  | .notText => "stream did not contain valid UTF-8"
  | .other words => words

end Host
end PacketPolicy

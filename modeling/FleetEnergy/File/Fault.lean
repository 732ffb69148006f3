/-! Why a file cannot be read or written. -/
namespace FleetEnergy.File
set_option autoImplicit false

inductive Fault
  | notFound
  | alreadyExists
  | notDirectory
  | isDirectory
  | nameTooLong
  /-- A path with a zero character, which no path can hold. -/
  | zeroInName
  | notText
  | notCompressed
  | truncated
  | incomplete
  | corrupt
  | badChecksum
  /-- A fault that only the host knows. -/
  | other (text : String)
deriving DecidableEq, Repr

def Fault.message : Fault → String
  | .notFound => "No such file or directory (os error 2)"
  | .alreadyExists => "File exists (os error 17)"
  | .notDirectory => "Not a directory (os error 20)"
  | .isDirectory => "Is a directory (os error 21)"
  | .nameTooLong => "File name too long (os error 36)"
  | .zeroInName => "file name contained an unexpected NUL byte"
  | .notText => "stream did not contain valid UTF-8"
  | .notCompressed => "invalid gzip header"
  | .truncated => "unexpected end of file"
  | .incomplete => "incomplete deflate stream"
  | .corrupt => "corrupt deflate stream"
  | .badChecksum => "corrupt gzip stream does not have a matching checksum"
  | .other text => text

end FleetEnergy.File

/-!
# Why a file access fails

The causes that the operating system or the end of a file gives, with their numbered texts.
-/
namespace SymbolTables

inductive FileFault
  | notFound
  | notDirectory
  | isDirectory
  | invalidArgument
  | nameTooLong
  | tooManyLinks
  /-- The file ends before the bytes asked for. -/
  | endOfFile
  /-- A file that was to be read as text holds other bytes. -/
  | notText
  /-- Any other cause, in the words of the system. -/
  | other (text : String)
deriving DecidableEq

def FileFault.message : FileFault → String
  | .notFound => "No such file or directory (os error 2)"
  | .notDirectory => "Not a directory (os error 20)"
  | .isDirectory => "Is a directory (os error 21)"
  | .invalidArgument => "Invalid argument (os error 22)"
  | .nameTooLong => "File name too long (os error 36)"
  | .tooManyLinks => "Too many levels of symbolic links (os error 40)"
  | .endOfFile => "failed to fill whole buffer"
  | .notText => "stream did not contain valid UTF-8"
  | .other text => text

end SymbolTables

import Shellwright.Text.Blank
/-!
# Executions

A command is a program with the arguments that it is given as they stand; nothing is interpreted by a
shell. A run of it either ends with an exit status or fails: it is cancelled, runs out of time, or never
starts.
-/

/-!
## Errors of the operating system

Why the operating system refused to start a program.
-/

namespace Shellwright

/-- Symbolic names of the error numbers. -/
def errorNames : List (Int × String) :=
  [(1, "EPERM"), (2, "ENOENT"), (3, "ESRCH"), (4, "EINTR"), (5, "EIO"), (6, "ENXIO"), (7, "E2BIG"),
   (8, "ENOEXEC"), (9, "EBADF"), (10, "ECHILD"), (11, "EAGAIN"), (12, "ENOMEM"), (13, "EACCES"),
   (14, "EFAULT"), (15, "ENOTBLK"), (16, "EBUSY"), (17, "EEXIST"), (18, "EXDEV"), (19, "ENODEV"),
   (20, "ENOTDIR"), (21, "EISDIR"), (22, "EINVAL"), (23, "ENFILE"), (24, "EMFILE"), (25, "ENOTTY"),
   (26, "ETXTBSY"), (27, "EFBIG"), (28, "ENOSPC"), (29, "ESPIPE"), (30, "EROFS"), (31, "EMLINK"),
   (32, "EPIPE"), (33, "EDOM"), (34, "ERANGE"), (35, "EDEADLOCK"), (36, "ENAMETOOLONG"),
   (37, "ENOLCK"), (38, "ENOSYS"), (39, "ENOTEMPTY"), (40, "ELOOP"), (42, "ENOMSG"), (43, "EIDRM"),
   (44, "ECHRNG"), (45, "EL2NSYNC"), (46, "EL3HLT"), (47, "EL3RST"), (48, "ELNRNG"),
   (49, "EUNATCH"), (50, "ENOCSI"), (51, "EL2HLT"), (52, "EBADE"), (53, "EBADR"), (54, "EXFULL"),
   (55, "ENOANO"), (56, "EBADRQC"), (57, "EBADSLT"), (59, "EBFONT"), (60, "ENOSTR"),
   (61, "ENODATA"), (62, "ETIME"), (63, "ENOSR"), (64, "ENONET"), (65, "ENOPKG"), (66, "EREMOTE"),
   (67, "ENOLINK"), (68, "EADV"), (69, "ESRMNT"), (70, "ECOMM"), (71, "EPROTO"), (72, "EMULTIHOP"),
   (73, "EDOTDOT"), (74, "EBADMSG"), (75, "EOVERFLOW"), (76, "ENOTUNIQ"), (77, "EBADFD"),
   (78, "EREMCHG"), (79, "ELIBACC"), (80, "ELIBBAD"), (81, "ELIBSCN"), (82, "ELIBMAX"),
   (83, "ELIBEXEC"), (84, "EILSEQ"), (85, "ERESTART"), (86, "ESTRPIPE"), (87, "EUSERS"),
   (88, "ENOTSOCK"), (89, "EDESTADDRREQ"), (90, "EMSGSIZE"), (91, "EPROTOTYPE"),
   (92, "ENOPROTOOPT"), (93, "EPROTONOSUPPORT"), (94, "ESOCKTNOSUPPORT"), (95, "ENOTSUP"),
   (96, "EPFNOSUPPORT"), (97, "EAFNOSUPPORT"), (98, "EADDRINUSE"), (99, "EADDRNOTAVAIL"),
   (100, "ENETDOWN"), (101, "ENETUNREACH"), (102, "ENETRESET"), (103, "ECONNABORTED"),
   (104, "ECONNRESET"), (105, "ENOBUFS"), (106, "EISCONN"), (107, "ENOTCONN"), (108, "ESHUTDOWN"),
   (109, "ETOOMANYREFS"), (110, "ETIMEDOUT"), (111, "ECONNREFUSED"), (112, "EHOSTDOWN"),
   (113, "EHOSTUNREACH"), (114, "EALREADY"), (115, "EINPROGRESS"), (116, "ESTALE"),
   (117, "EUCLEAN"), (118, "ENOTNAM"), (119, "ENAVAIL"), (120, "EISNAM"), (121, "EREMOTEIO"),
   (122, "EDQUOT"), (123, "ENOMEDIUM"), (124, "EMEDIUMTYPE"), (125, "ECANCELED"), (126, "ENOKEY"),
   (127, "EKEYEXPIRED"), (128, "EKEYREVOKED"), (129, "EKEYREJECTED"), (130, "EOWNERDEAD"),
   (131, "ENOTRECOVERABLE"), (132, "ERFKILL")]

/-- An error of the operating system: with a number and its description, either of which may be
missing, or as one text. -/
inductive SystemError
  | numbered (number : Option Int) (description : Option String)
  | plain (text : String)
  deriving DecidableEq, Repr

namespace SystemError

def number : SystemError → Option Int
  | .numbered number _ => number
  | .plain _ => none

def symbol (e : SystemError) : Option String :=
  e.number.bind fun n => errorNames.lookup n

def description : SystemError → Option String
  | .numbered _ description => description
  | .plain _ => none

/-- The whole error on one line; a missing part reads `None`. -/
def text : SystemError → String
  | .numbered number description =>
    "[Errno " ++ (number.map toString).getD "None" ++ "] " ++ description.getD "None"
  | .plain text => text

/-- No such file or directory. -/
def missingFile : Int := 2

end SystemError

end Shellwright

namespace Shellwright

structure CommandLine where
  program : String
  arguments : List String := []
  deriving DecidableEq, Repr

/-- Program and arguments with a space between them, for display. -/
def CommandLine.text (c : CommandLine) : String :=
  " ".intercalate (c.program :: c.arguments)

/-- Class of a failed launch. -/
inductive SpawnReason
  | notFound
  | permissionDenied
  | other
  deriving DecidableEq, Repr

namespace SpawnReason

/-- A missing file is 2, a refused permission 13 or 1. -/
def ofNumber : Option Int → SpawnReason
  | some 2 => .notFound
  | some 13 => .permissionDenied
  | some 1 => .permissionDenied
  | _ => .other

def label : SpawnReason → String
  | .notFound => "not_found"
  | .permissionDenied => "permission_denied"
  | .other => "other"

def ofLabel? : String → Option SpawnReason
  | "not_found" => some .notFound
  | "permission_denied" => some .permissionDenied
  | "other" => some .other
  | _ => none

end SpawnReason

/-- Why a run has no exit status. -/
inductive Failure
  | cancelled (message : String)
  | timeout (message : String) (limit : Int)
  | spawn (message : String) (code : Option String) (reason : SpawnReason)
  deriving DecidableEq, Repr

namespace Failure

def message : Failure → String
  | .cancelled message => message
  | .timeout message _ => message
  | .spawn message _ _ => message

/-- A run that was cut short tells nothing about the document. -/
def isInconclusive : Failure → Bool
  | .cancelled _ => true
  | .timeout .. => true
  | .spawn .. => false

/-- The failure to launch `command`, in words for the user. -/
def ofSystemError (command : String) (e : SystemError) : Failure :=
  let reason := SpawnReason.ofNumber e.number
  let message := match reason with
    | .notFound => s!"{command} not installed"
    | .permissionDenied => s!"Permission denied when running {command}"
    | .other =>
      let detail := match e.description with
        | some d => if d.isEmpty then e.text else d
        | none => e.text
      s!"Failed to run {command}: {detail}"
  .spawn message e.symbol reason

end Failure

/-- How a run ended. -/
inductive Ending
  | exited (status : Int)
  | failed (failure : Failure)
  deriving DecidableEq, Repr

/-- One run of a command line, with the output captured until it ended. -/
structure Execution where
  command : String
  ending : Ending
  stdout : String := ""
  stderr : String := ""
  deriving DecidableEq, Repr

namespace Execution

def status? (e : Execution) : Option Int :=
  match e.ending with
  | .exited status => some status
  | .failed _ => none

def failure? (e : Execution) : Option Failure :=
  match e.ending with
  | .exited _ => none
  | .failed failure => some failure

def succeeded (e : Execution) : Bool :=
  e.status? == some 0

def isInconclusive (e : Execution) : Bool :=
  e.failure?.any Failure.isInconclusive

/-- Standard output and then standard error, on a line of its own. -/
def combinedOutput (e : Execution) : String :=
  if !e.stdout.isEmpty && !e.stderr.isEmpty then
    e.stdout ++ (if e.stdout.toList.getLast? == some '\n' then "" else "\n") ++ e.stderr
  else if e.stdout.isEmpty then e.stderr else e.stdout

end Execution

end Shellwright

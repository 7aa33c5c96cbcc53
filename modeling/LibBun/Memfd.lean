import LibBun.Lib.Files
import LibBun.Structs

/-!
# Files in memory

`bun_memfd_create` is to hand out a descriptor of a file that nobody else can find. It
asks the kernel for one, and if there is no such system call it makes a file in a
directory, by one of two ways, and takes its name away again. Every call it makes may
fail; the answers are a parameter.

What a call does when it succeeds is documented: `F_SETFD` looks at the lowest bit of
its argument, `mkstemp` makes a file of a new name, and a path that ends in a slash is a
directory, so `open` with `O_CREAT` makes no file of it. The strings that `asprintf`
allocates are left out.
-/

namespace LibBun

/-- A path, without its NUL. -/
abbrev Path : Type := List UInt8

/-- `'/'`. -/
def slash : UInt8 := 0x2f

/-! ## System calls -/

/-- `O_CLOEXEC`, which is no flag of a descriptor. -/
def oCloexec : Nat := 0x80000

/-- `FD_CLOEXEC`. -/
def fdCloexec : Nat := 1

/-- `memfd_create(name, 0)`. -/
def memfdCreate (s : Files Path) (ok : Bool) : Option Nat × Files Path :=
  if ok then (some s.newFd, s.openFd false) else (none, s)

/-- `mkstemp`: the characters put in place of the six `X`, if there is a file to be had. -/
def mkstemp (s : Files Path) (template : Path) (chosen : Option Path) :
    Option (Nat × Path) × Files Path :=
  match chosen with
  | none => (none, s)
  | some suffix =>
      let filename := template ++ suffix
      if filename ∈ s.names then (none, s)
      else (some (s.newFd, filename), (s.openFd false).link filename)

/-- `fcntl(fd, F_SETFD, arg)`. -/
def fcntlSetfd (s : Files Path) (fd arg : Nat) (ok : Bool) : Bool × Files Path :=
  if ok then (true, s.setOnExec fd (decide (arg &&& fdCloexec ≠ 0))) else (false, s)

/-- `unlink`. -/
def unlinkFile (s : Files Path) (path : Path) (ok : Bool) : Bool × Files Path :=
  if ok then (true, s.unlink path) else (false, s)

/-- `open` of a directory with `O_TMPFILE | O_CLOEXEC | O_RDWR`. -/
def openTmpfile (s : Files Path) (ok : Bool) : Option Nat × Files Path :=
  if ok then (some s.newFd, s.openFd true) else (none, s)

/-- `open` with `O_CREAT | O_CLOEXEC | O_TRUNC | O_RDWR`. -/
def openCreat (s : Files Path) (path : Path) (ok : Bool) : Option Nat × Files Path :=
  if path.getLast? = some slash then (none, s)
  else if ok then (some s.newFd, (s.openFd true).link path)
  else (none, s)

/-! ## `bun_utils.c` -/

/-- What the calls of `bun_memfd_create` answer, in the order in which they are made. -/
structure MemfdAnswers where
  /-- `SYS_memfd_create`; there may be no such call. -/
  memfd : Bool
  asprintf : Bool
  mkstemp : Option Path
  fcntl : Bool
  unlink : Bool
  asprintfReal : Bool
  /-- With `O_TMPFILE`, which may not be defined. -/
  openTmpfile : Bool
  openCreat : Bool
  unlinkReal : Bool

/-- `tmp_path`; `tmp` is `/tmp` or, on Android, `/data/local/tmp`. -/
def tmpPath (tmp : CString) (cacheDir : Option CString) : Path :=
  match cacheDir with
  | some path => path.1
  | none => tmp.1

/-- The argument of `mkstemp`, up to the `X`. -/
def mkstempTemplate (tmp : CString) (cacheDir : Option CString) (name : CString) : Path :=
  tmpPath tmp cacheDir ++ [slash] ++ name.1 ++ [0x2e]

/-- `open_mkstemp`. -/
def openMkstemp (tmp : CString) (cacheDir : Option CString) (s : Files Path) (name : CString)
    (answers : MemfdAnswers) : Option Nat × Files Path :=
  if answers.asprintf = false then
    (none, s)
  else
    match mkstemp s (mkstempTemplate tmp cacheDir name) answers.mkstemp with
    | (none, s) => (none, s)
    | (some (fd, filename), s) =>
        let (ok, s) := fcntlSetfd s fd oCloexec answers.fcntl
        if ok = false then
          (none, s.closeFd fd)
        else
          let (ok, s) := unlinkFile s filename answers.unlink
          if ok = false then
            (none, s.closeFd fd)
          else
            (some fd, s)

/--
`open_real_file`. The name is not used. A cache directory that is `NULL` is printed
as `(null)`.
-/
def openRealFile (cacheDir : Option CString) (s : Files Path) (answers : MemfdAnswers) :
    Option Nat × Files Path :=
  if answers.asprintfReal = false then
    (none, s)
  else
    let finalName :=
      (cacheDir.elim [0x28, 0x6e, 0x75, 0x6c, 0x6c, 0x29] Subtype.val) ++ [slash]
    match openTmpfile s answers.openTmpfile with
    | (some fd, s) => (some fd, s)
    | (none, s) =>
        match openCreat s finalName answers.openCreat with
        | (none, s) => (none, s)
        | (some fd, s) =>
            let (ok, s) := unlinkFile s finalName answers.unlinkReal
            if ok = false then
              (none, s.closeFd fd)
            else
              (some fd, s)

/-- `bun_memfd_create`. -/
def bunMemfdCreate (tmp : CString) (cacheDir : Option CString) (s : Files Path) (name : CString)
    (answers : MemfdAnswers) : Option Nat × Files Path :=
  match memfdCreate s answers.memfd with
  | (some fd, s) => (some fd, s)
  | (none, s) =>
      match openMkstemp tmp cacheDir s name answers with
      | (some fd, s) => (some fd, s)
      | (none, s) => openRealFile cacheDir s answers

/-! ## A program and its descriptors -/

/-- A call of the program. It closes only descriptors it was given. -/
inductive MemfdOp where
  | bunCacheDirSet (path : Option CString)
  | bunMemfdCreate (name : CString) (answers : MemfdAnswers)
  | close (fd : Nat)

/-- The files, the cache directory, and the descriptors the program has been given. -/
structure MemfdUser where
  files : Files Path
  bunInternalCacheDir : Option CString
  held : Finset Nat

/-- One call. -/
def MemfdUser.step (tmp : CString) (u : MemfdUser) : MemfdOp → MemfdUser
  | .bunCacheDirSet path => { u with bunInternalCacheDir := path }
  | .bunMemfdCreate name answers =>
      match bunMemfdCreate tmp u.bunInternalCacheDir u.files name answers with
      | (some fd, s) => { u with files := s, held := insert fd u.held }
      | (none, s) => { u with files := s }
  | .close fd =>
      if fd ∈ u.held then { u with files := u.files.closeFd fd, held := u.held.erase fd }
      else u

/-- All calls, in order. -/
def MemfdUser.run (tmp : CString) (u : MemfdUser) (ops : List MemfdOp) : MemfdUser :=
  ops.foldl (step tmp) u

end LibBun

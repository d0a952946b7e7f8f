/-!
This module contains what the modelled C files share: addresses, sizes, `errno` and the ways in
which a call can fail to return.
-/

namespace Dosix

abbrev Addr := BitVec 64

abbrev Size := BitVec 64

/--
Why a call does not return: an `assert` that fails, an `assert (false)` that is reached, behaviour
that C leaves undefined, an exit of the whole process, or a loop that is not followed to its end.
-/
inductive Fault where
  | assertion
  | unreachable
  | undefined
  | exit (status : Nat)
  | unfinished
  deriving Repr, DecidableEq

/--
The values of `errno` that `_dosexterr` lists, and all the others. Where it is `0` we use `none`.
-/
inductive Errno where
  | EPERM | ENOENT | ESRCH | EINTR | EIO | ENXIO | E2BIG | ENOEXEC | EBADF | ECHILD | EDEADLK
  | ENOMEM | EACCES | EFAULT | ENOTBLK | EBUSY | EEXIST | EXDEV | ENODEV | ENOTDIR | EISDIR
  | EINVAL | EMFILE | ENFILE | ENOTTY | ETXTBSY | EFBIG | ENOSPC | ESPIPE | EROFS | EMLINK
  | ETOOMANYREFS | ELOOP | EPIPE | EDOM | ERANGE | EAGAIN | EINPROGRESS | EALREADY | ENOTSOCK
  | EMSGSIZE | EPROTOTYPE | ENOPROTOOPT | ENOTSUP | EPROTONOSUPPORT | ESOCKTNOSUPPORT
  | EPFNOSUPPORT | EAFNOSUPPORT | EADDRINUSE | EADDRNOTAVAIL | ENETDOWN | ENETUNREACH | ENETRESET
  | ECONNABORTED | ECONNRESET | ENOBUFS | EISCONN | ENOTCONN | EDESTADDRREQ | EHOSTDOWN
  | EHOSTUNREACH | ESHUTDOWN | ETIMEDOUT | ECONNREFUSED | ENAMETOOLONG | ENOTEMPTY | EUSERS
  | EDQUOT | ESTALE | EREMOTE | ENOLCK | ENOSYS | EILSEQ | EBADMSG | ENOMSG | EIDRM | EMULTIHOP
  | ENODATA | ENOLINK | ENOSR | ENOSTR | EOVERFLOW | EPROTO | ETIME | ECANCELED
  | unlisted (n : Nat)
  deriving Repr, DecidableEq

def Memory.write {β : Type} (mem : Addr → Option β) (a : Addr) (b : Option β)
    : Addr → Option β :=
  fun x => if x = a then b else mem x

@[simp]
theorem Memory.write_same {β : Type} (mem : Addr → Option β) (a : Addr) (b : Option β)
    : Memory.write mem a b a = b := by
  simp [Memory.write]

@[simp]
theorem Memory.write_other {β : Type} (mem : Addr → Option β) {a x : Addr} (b : Option β)
    (h : x ≠ a)
    : Memory.write mem a b x = mem x := by
  simp [Memory.write, h]

end Dosix

import Dosix.Libc.Basic

/-!
This module contains the extended error codes of DOS and the table by which `_dosexterr` translates
the values of `errno` into them. The branches that only other systems have are left out, and
`EWOULDBLOCK` and `EOPNOTSUPP` are `EAGAIN` and `ENOTSUP`, as on Linux.
-/

namespace Dosix

/--
`struct _DOSERROR`. The last three fields have the type `char`, which is signed.
-/
structure DosError where
  exterror : BitVec 32 := 0
  errclass : BitVec 8 := 0
  action : BitVec 8 := 0
  locus : BitVec 8 := 0
  deriving Repr, DecidableEq

abbrev EXTERR_FILE_NOT_FOUND : BitVec 32 := 0x02
abbrev EXTERR_PATH_NOT_FOUND : BitVec 32 := 0x03
abbrev EXTERR_TOO_MANY_OPEN_FILES : BitVec 32 := 0x04
abbrev EXTERR_ACCESS_DENIED : BitVec 32 := 0x05
abbrev EXTERR_INVAL_HANDLE : BitVec 32 := 0x06
abbrev EXTERR_MCB_DESTROYED : BitVec 32 := 0x07
abbrev EXTERR_INSUF_MEM : BitVec 32 := 0x08
abbrev EXTERR_MBA_INVAL : BitVec 32 := 0x09
abbrev EXTERR_DATA_INVAL : BitVec 32 := 0x0d
abbrev EXTERR_FIXUP_OVERFLOW : BitVec 32 := 0x0e
abbrev EXTERR_INVAL_DRV_0x0f : BitVec 32 := 0x0f
abbrev EXTERR_NOT_SAME_DEVICE : BitVec 32 := 0x11
abbrev EXTERR_NO_MORE_FILES : BitVec 32 := 0x12
abbrev EXTERR_DSK_WRITE_PROTECTED : BitVec 32 := 0x13
abbrev EXTERR_UNKNOWN_MEDIA_TYPE : BitVec 32 := 0x1a
abbrev EXTERR_READ_FAULT : BitVec 32 := 0x1e
abbrev EXTERR_LOCK_VIOLATION : BitVec 32 := 0x21
abbrev EXTERR_DSK_CHANGE_INVAL : BitVec 32 := 0x22
abbrev EXTERR_FCB_UNAVAILABLE : BitVec 32 := 0x23
abbrev EXTERR_SHARING_BUFFER_OVERFLOW : BitVec 32 := 0x24
abbrev EXTERR_CANT_COMPLETE_FILE_OP : BitVec 32 := 0x26
abbrev EXTERR_INSUF_DSK_SPACE : BitVec 32 := 0x27
abbrev EXTERR_NET_REQ_NOT_SUPPORTED : BitVec 32 := 0x32
abbrev EXTERR_REMOTE_COMPUTER_NOT_LISTENING : BitVec 32 := 0x33
abbrev EXTERR_DUP_NAME_ON_NET : BitVec 32 := 0x34
abbrev EXTERR_NET_NAME_NOT_FOUND_0x35 : BitVec 32 := 0x35
abbrev EXTERR_NET_BUSY : BitVec 32 := 0x36
abbrev EXTERR_NET_DEV_NO_LONGER_EXISTS : BitVec 32 := 0x37
abbrev EXTERR_UNEXPECTED_NET_ERROR : BitVec 32 := 0x3b
abbrev EXTERR_NET_NAME_DEL : BitVec 32 := 0x40
abbrev EXTERR_NET_DEV_TYPE_INCORRECT : BitVec 32 := 0x42
abbrev EXTERR_NET_NAME_LIMIT_EXCEEDED : BitVec 32 := 0x44
abbrev EXTERR_TEMPORARILY_PAUSED : BitVec 32 := 0x46
abbrev EXTERR_NET_REQ_NOT_ACCEPT : BitVec 32 := 0x47
abbrev EXTERR_UNEXPECT_ADAPT_CLOSE : BitVec 32 := 0x4a
abbrev EXTERR_DSK_LIMIT_EXCEEDED_NET_NODE : BitVec 32 := 0x4d
abbrev EXTERR_FILE_EXISTS : BitVec 32 := 0x50
abbrev EXTERR_TOO_MANY_REDIRS : BitVec 32 := 0x54
abbrev EXTERR_DUP_REDIR : BitVec 32 := 0x55
abbrev EXTERR_INVAL_PARM : BitVec 32 := 0x57
abbrev EXTERR_NET_WRITE_FAULT : BitVec 32 := 0x58
abbrev EXTERR_FN_NOT_SUPPORTED_NET : BitVec 32 := 0x59
abbrev EXTERR_INVAL_SYS_CALL : BitVec 32 := 0x5f
abbrev EXTERR_DRV_LOCK_OTHER_PROC : BitVec 32 := 0x6c
abbrev EXTERR_BROKEN_PIPE : BitVec 32 := 0x6d
abbrev EXTERR_DSK_FULL : BitVec 32 := 0x70
abbrev EXTERR_UNKNOWN_CATEGORY_IOCTL : BitVec 32 := 0x75
abbrev EXTERR_LVL4_DRV_NOT_FOUND_DOS_IOCTL : BitVec 32 := 0x77
abbrev EXTERR_INVAL_FN_NUM : BitVec 32 := 0x78
abbrev EXTERR_INVAL_CHAR : BitVec 32 := 0x7b
abbrev EXTERR_PROC_ADDR_NOT_FOUND : BitVec 32 := 0x7f
abbrev EXTERR_CWAIT_FOUND_NO_CHILDREN : BitVec 32 := 0x80
abbrev EXTERR_ATTEMPT_SEEK_DEV_PIPE : BitVec 32 := 0x84
abbrev EXTERR_DRV_BUSY : BitVec 32 := 0x8e
abbrev EXTERR_JOIN_DIR_NOT_EMPTY : BitVec 32 := 0x91
abbrev EXTERR_BAD_ARGUMENTS : BitVec 32 := 0xa0
abbrev EXTERR_LOCK_COUNT_EXCEEDED : BitVec 32 := 0xb4
abbrev EXTERR_BAD_EXE_FORMAT : BitVec 32 := 0xc1
abbrev EXTERR_NO_DATA_AVAIL_NONBLOCK_READ : BitVec 32 := 0xe8
abbrev EXTERR_MORE_DATA_AVAIL : BitVec 32 := 0xea
abbrev ERRCLASS_OUT_OF_RESOURCE : BitVec 8 := 0x01
abbrev ERRCLASS_TMP_SITUATION : BitVec 8 := 0x02
abbrev ERRCLASS_ACCESS_DENIED : BitVec 8 := 0x03
abbrev ERRCLASS_INTERN_SYS_ERROR : BitVec 8 := 0x04
abbrev ERRCLASS_HW_FAIL : BitVec 8 := 0x05
abbrev ERRCLASS_SYS_FAIL : BitVec 8 := 0x06
abbrev ERRCLASS_APP_PROG_ERROR : BitVec 8 := 0x07
abbrev ERRCLASS_NOT_FOUND : BitVec 8 := 0x08
abbrev ERRCLASS_BAD_FORMAT : BitVec 8 := 0x09
abbrev ERRCLASS_LOCKED : BitVec 8 := 0x0a
abbrev ERRCLASS_MEDIA_ERROR : BitVec 8 := 0x0b
abbrev ERRCLASS_ALREADY_EXISTS : BitVec 8 := 0x0c
abbrev ERRCLASS_UNKNOWN : BitVec 8 := 0x0d
abbrev ERRCLASS_CANNOT : BitVec 8 := 0x0e
abbrev ERRCLASS_TIME : BitVec 8 := 0x0f
abbrev ERRACT_RETRY : BitVec 8 := 0x01
abbrev ERRACT_DELAYED_RETRY : BitVec 8 := 0x02
abbrev ERRACT_PROMPT_USR_REENTER_INPUT : BitVec 8 := 0x03
abbrev ERRACT_ABORT_AFTER_CLEANUP : BitVec 8 := 0x04
abbrev ERRACT_IMMEDIATE_ABORT : BitVec 8 := 0x05
abbrev ERRACT_IGNORE : BitVec 8 := 0x06
abbrev ERRACT_RETRY_AFTER_USR_INTERV : BitVec 8 := 0x07
abbrev ERRLOCUS_UNKNOWN : BitVec 8 := 0x01
abbrev ERRLOCUS_BLOCK_DEV : BitVec 8 := 0x02
abbrev ERRLOCUS_NET_RELATED : BitVec 8 := 0x03
abbrev ERRLOCUS_CHAR_DEV : BitVec 8 := 0x04
abbrev ERRLOCUS_MEM_RELATED : BitVec 8 := 0x05

/--
The `don't change` marks. They are `int` constants, to which the fields are compared as `int`s.
-/
abbrev EXTERR_DONT_CHANGE : Int := 0xff
abbrev ERRCLASS_DONT_CHANGE : Int := 0xff
abbrev ERRACT_DONT_CHANGE : Int := 0xff
abbrev ERRLOCUS_DONT_CHANGE : Int := 0xff

def Errno.doserror (errno : Errno) : Option DosError :=
  match errno with
  | .EPERM =>
    some ⟨EXTERR_ACCESS_DENIED, ERRCLASS_ACCESS_DENIED,
      ERRACT_ABORT_AFTER_CLEANUP, ERRLOCUS_UNKNOWN⟩
  | .ENOENT =>
    some ⟨EXTERR_FILE_NOT_FOUND, ERRCLASS_NOT_FOUND,
      ERRACT_PROMPT_USR_REENTER_INPUT, ERRLOCUS_BLOCK_DEV⟩
  | .ESRCH =>
    some ⟨EXTERR_PROC_ADDR_NOT_FOUND, ERRCLASS_NOT_FOUND,
      ERRACT_ABORT_AFTER_CLEANUP, ERRLOCUS_UNKNOWN⟩
  | .EINTR =>
    some ⟨EXTERR_INVAL_SYS_CALL, ERRCLASS_TMP_SITUATION, ERRACT_RETRY, ERRLOCUS_UNKNOWN⟩
  | Errno.EIO =>
    some ⟨EXTERR_READ_FAULT, ERRCLASS_HW_FAIL, ERRACT_RETRY_AFTER_USR_INTERV, ERRLOCUS_UNKNOWN⟩
  | Errno.ENXIO =>
    some ⟨EXTERR_LVL4_DRV_NOT_FOUND_DOS_IOCTL, ERRCLASS_SYS_FAIL,
      ERRACT_ABORT_AFTER_CLEANUP, ERRLOCUS_UNKNOWN⟩
  | .E2BIG =>
    some ⟨EXTERR_BAD_ARGUMENTS, ERRCLASS_OUT_OF_RESOURCE,
      ERRACT_ABORT_AFTER_CLEANUP, ERRLOCUS_UNKNOWN⟩
  | .ENOEXEC =>
    some ⟨EXTERR_BAD_EXE_FORMAT, ERRCLASS_BAD_FORMAT,
      ERRACT_ABORT_AFTER_CLEANUP, ERRLOCUS_UNKNOWN⟩
  | .EBADF =>
    some ⟨EXTERR_INVAL_HANDLE, ERRCLASS_APP_PROG_ERROR,
      ERRACT_ABORT_AFTER_CLEANUP, ERRLOCUS_UNKNOWN⟩
  | .ECHILD =>
    some ⟨EXTERR_CWAIT_FOUND_NO_CHILDREN, ERRCLASS_APP_PROG_ERROR,
      ERRACT_ABORT_AFTER_CLEANUP, ERRLOCUS_UNKNOWN⟩
  | .EDEADLK =>
    some ⟨EXTERR_LOCK_VIOLATION, ERRCLASS_LOCKED, ERRACT_IMMEDIATE_ABORT, ERRLOCUS_UNKNOWN⟩
  | .ENOMEM =>
    some ⟨EXTERR_INSUF_MEM, ERRCLASS_OUT_OF_RESOURCE,
      ERRACT_IMMEDIATE_ABORT, ERRLOCUS_MEM_RELATED⟩
  | .EACCES =>
    some ⟨EXTERR_ACCESS_DENIED, ERRCLASS_ACCESS_DENIED,
      ERRACT_ABORT_AFTER_CLEANUP, ERRLOCUS_BLOCK_DEV⟩
  | .EFAULT =>
    some ⟨EXTERR_MBA_INVAL, ERRCLASS_APP_PROG_ERROR, ERRACT_IMMEDIATE_ABORT, ERRLOCUS_MEM_RELATED⟩
  | .ENOTBLK =>
    some ⟨EXTERR_INVAL_DRV_0x0f, ERRCLASS_MEDIA_ERROR,
      ERRACT_PROMPT_USR_REENTER_INPUT, ERRLOCUS_BLOCK_DEV⟩
  | .EBUSY =>
    some ⟨EXTERR_DRV_BUSY, ERRCLASS_LOCKED, ERRACT_ABORT_AFTER_CLEANUP, ERRLOCUS_UNKNOWN⟩
  | .EEXIST =>
    some ⟨EXTERR_FILE_EXISTS, ERRCLASS_ALREADY_EXISTS,
      ERRACT_PROMPT_USR_REENTER_INPUT, ERRLOCUS_BLOCK_DEV⟩
  | .EXDEV =>
    some ⟨EXTERR_NOT_SAME_DEVICE, ERRCLASS_CANNOT,
      ERRACT_PROMPT_USR_REENTER_INPUT, ERRLOCUS_BLOCK_DEV⟩
  | .ENODEV =>
    some ⟨EXTERR_UNKNOWN_MEDIA_TYPE, ERRCLASS_BAD_FORMAT,
      ERRACT_ABORT_AFTER_CLEANUP, ERRLOCUS_UNKNOWN⟩
  | .ENOTDIR =>
    some ⟨EXTERR_PATH_NOT_FOUND, ERRCLASS_BAD_FORMAT,
      ERRACT_PROMPT_USR_REENTER_INPUT, ERRLOCUS_BLOCK_DEV⟩
  | .EISDIR =>
    some ⟨EXTERR_FILE_NOT_FOUND, ERRCLASS_BAD_FORMAT,
      ERRACT_PROMPT_USR_REENTER_INPUT, ERRLOCUS_BLOCK_DEV⟩
  | .EINVAL =>
    some ⟨EXTERR_BAD_ARGUMENTS, ERRCLASS_APP_PROG_ERROR,
      ERRACT_ABORT_AFTER_CLEANUP, ERRLOCUS_UNKNOWN⟩
  | .EMFILE =>
    some ⟨EXTERR_TOO_MANY_OPEN_FILES, ERRCLASS_OUT_OF_RESOURCE,
      ERRACT_ABORT_AFTER_CLEANUP, ERRLOCUS_UNKNOWN⟩
  | .ENFILE =>
    some ⟨EXTERR_TOO_MANY_OPEN_FILES, ERRCLASS_OUT_OF_RESOURCE,
      ERRACT_IMMEDIATE_ABORT, ERRLOCUS_UNKNOWN⟩
  | .ENOTTY =>
    some ⟨EXTERR_UNKNOWN_CATEGORY_IOCTL, ERRCLASS_APP_PROG_ERROR,
      ERRACT_ABORT_AFTER_CLEANUP, ERRLOCUS_CHAR_DEV⟩
  | .ETXTBSY =>
    some ⟨EXTERR_CANT_COMPLETE_FILE_OP, ERRCLASS_TMP_SITUATION,
      ERRACT_DELAYED_RETRY, ERRLOCUS_BLOCK_DEV⟩
  | .EFBIG =>
    some ⟨EXTERR_INSUF_DSK_SPACE, ERRCLASS_OUT_OF_RESOURCE,
      ERRACT_RETRY_AFTER_USR_INTERV, ERRLOCUS_BLOCK_DEV⟩
  | .ENOSPC =>
    some ⟨EXTERR_DSK_FULL, ERRCLASS_OUT_OF_RESOURCE,
      ERRACT_RETRY_AFTER_USR_INTERV, ERRLOCUS_BLOCK_DEV⟩
  | .ESPIPE =>
    some ⟨EXTERR_ATTEMPT_SEEK_DEV_PIPE, ERRCLASS_CANNOT, ERRACT_IGNORE, ERRLOCUS_UNKNOWN⟩
  | .EROFS =>
    some ⟨EXTERR_DSK_WRITE_PROTECTED, ERRCLASS_CANNOT,
      ERRACT_RETRY_AFTER_USR_INTERV, ERRLOCUS_BLOCK_DEV⟩
  | .EMLINK | .ETOOMANYREFS | .ELOOP =>
    some ⟨EXTERR_TOO_MANY_REDIRS, ERRCLASS_OUT_OF_RESOURCE, ERRACT_IGNORE, ERRLOCUS_BLOCK_DEV⟩
  | .EPIPE =>
    some ⟨EXTERR_BROKEN_PIPE, ERRCLASS_SYS_FAIL, ERRACT_ABORT_AFTER_CLEANUP, ERRLOCUS_UNKNOWN⟩
  | .EDOM =>
    some ⟨EXTERR_DATA_INVAL, ERRCLASS_APP_PROG_ERROR, ERRACT_IGNORE, ERRLOCUS_UNKNOWN⟩
  | .ERANGE =>
    some ⟨EXTERR_FIXUP_OVERFLOW, ERRCLASS_APP_PROG_ERROR, ERRACT_IGNORE, ERRLOCUS_UNKNOWN⟩
  | .EAGAIN =>
    some ⟨EXTERR_FCB_UNAVAILABLE, ERRCLASS_TMP_SITUATION, ERRACT_DELAYED_RETRY, ERRLOCUS_UNKNOWN⟩
  | .EINPROGRESS =>
    some ⟨EXTERR_NET_BUSY, ERRCLASS_TMP_SITUATION, ERRACT_DELAYED_RETRY, ERRLOCUS_NET_RELATED⟩
  | .EALREADY =>
    some ⟨EXTERR_NET_BUSY, ERRCLASS_TMP_SITUATION, ERRACT_DELAYED_RETRY, ERRLOCUS_NET_RELATED⟩
  | .ENOTSOCK =>
    some ⟨EXTERR_NET_DEV_TYPE_INCORRECT, ERRCLASS_BAD_FORMAT,
      ERRACT_PROMPT_USR_REENTER_INPUT, ERRLOCUS_NET_RELATED⟩
  | .EMSGSIZE =>
    some ⟨EXTERR_NET_WRITE_FAULT, ERRCLASS_OUT_OF_RESOURCE, ERRACT_IGNORE, ERRLOCUS_NET_RELATED⟩
  | .EPROTOTYPE | .ENOPROTOOPT =>
    some ⟨EXTERR_NET_REQ_NOT_SUPPORTED, ERRCLASS_SYS_FAIL,
      ERRACT_ABORT_AFTER_CLEANUP, ERRLOCUS_NET_RELATED⟩
  | .ENOTSUP =>
    some ⟨EXTERR_INVAL_PARM, ERRCLASS_INTERN_SYS_ERROR, ERRACT_IGNORE, ERRLOCUS_UNKNOWN⟩
  | .EPROTONOSUPPORT | .ESOCKTNOSUPPORT | .EPFNOSUPPORT | .EAFNOSUPPORT =>
    some ⟨EXTERR_FN_NOT_SUPPORTED_NET, ERRCLASS_SYS_FAIL,
      ERRACT_ABORT_AFTER_CLEANUP, ERRLOCUS_NET_RELATED⟩
  | .EADDRINUSE =>
    some ⟨EXTERR_DUP_NAME_ON_NET, ERRCLASS_SYS_FAIL,
      ERRACT_ABORT_AFTER_CLEANUP, ERRLOCUS_NET_RELATED⟩
  | .EADDRNOTAVAIL =>
    some ⟨EXTERR_NET_NAME_NOT_FOUND_0x35, ERRCLASS_NOT_FOUND,
      ERRACT_ABORT_AFTER_CLEANUP, ERRLOCUS_NET_RELATED⟩
  | .ENETDOWN | .ENETUNREACH =>
    some ⟨EXTERR_NET_DEV_NO_LONGER_EXISTS, ERRCLASS_NOT_FOUND,
      ERRACT_ABORT_AFTER_CLEANUP, ERRLOCUS_NET_RELATED⟩
  | .ENETRESET =>
    some ⟨EXTERR_REMOTE_COMPUTER_NOT_LISTENING, ERRCLASS_MEDIA_ERROR,
      ERRACT_ABORT_AFTER_CLEANUP, ERRLOCUS_NET_RELATED⟩
  | .ECONNABORTED =>
    some ⟨EXTERR_NET_NAME_DEL, ERRCLASS_SYS_FAIL,
      ERRACT_ABORT_AFTER_CLEANUP, ERRLOCUS_NET_RELATED⟩
  | .ECONNRESET =>
    some ⟨EXTERR_UNEXPECT_ADAPT_CLOSE, ERRCLASS_UNKNOWN,
      ERRACT_ABORT_AFTER_CLEANUP, ERRLOCUS_NET_RELATED⟩
  | .ENOBUFS =>
    some ⟨EXTERR_INSUF_MEM, ERRCLASS_OUT_OF_RESOURCE,
      ERRACT_IMMEDIATE_ABORT, ERRLOCUS_MEM_RELATED⟩
  | .EISCONN =>
    some ⟨EXTERR_DUP_REDIR, ERRCLASS_ALREADY_EXISTS, ERRACT_IGNORE, ERRLOCUS_NET_RELATED⟩
  | .ENOTCONN | .EDESTADDRREQ | .EHOSTDOWN | .EHOSTUNREACH =>
    some ⟨EXTERR_REMOTE_COMPUTER_NOT_LISTENING, ERRCLASS_NOT_FOUND,
      ERRACT_RETRY_AFTER_USR_INTERV, ERRLOCUS_NET_RELATED⟩
  | .ESHUTDOWN =>
    some ⟨EXTERR_NET_DEV_NO_LONGER_EXISTS, ERRCLASS_NOT_FOUND,
      ERRCLASS_CANNOT, ERRLOCUS_NET_RELATED⟩
  | .ETIMEDOUT =>
    some ⟨EXTERR_UNEXPECT_ADAPT_CLOSE, ERRCLASS_TIME, ERRACT_RETRY, ERRLOCUS_NET_RELATED⟩
  | .ECONNREFUSED =>
    some ⟨EXTERR_NET_REQ_NOT_ACCEPT, ERRCLASS_UNKNOWN, ERRACT_DELAYED_RETRY, ERRLOCUS_NET_RELATED⟩
  | .ENAMETOOLONG =>
    some ⟨EXTERR_NET_NAME_LIMIT_EXCEEDED, ERRCLASS_SYS_FAIL,
      ERRACT_RETRY_AFTER_USR_INTERV, ERRLOCUS_UNKNOWN⟩
  | .ENOTEMPTY =>
    some ⟨EXTERR_JOIN_DIR_NOT_EMPTY, ERRCLASS_CANNOT,
      ERRACT_ABORT_AFTER_CLEANUP, ERRLOCUS_BLOCK_DEV⟩
  | .EUSERS =>
    some ⟨EXTERR_TOO_MANY_OPEN_FILES, ERRCLASS_OUT_OF_RESOURCE,
      ERRACT_ABORT_AFTER_CLEANUP, ERRLOCUS_UNKNOWN⟩
  | .EDQUOT =>
    some ⟨EXTERR_DSK_LIMIT_EXCEEDED_NET_NODE, ERRCLASS_OUT_OF_RESOURCE,
      ERRACT_ABORT_AFTER_CLEANUP, ERRLOCUS_BLOCK_DEV⟩
  | .ESTALE =>
    some ⟨EXTERR_INVAL_HANDLE, ERRCLASS_INTERN_SYS_ERROR,
      ERRACT_IMMEDIATE_ABORT, ERRLOCUS_BLOCK_DEV⟩
  | .EREMOTE =>
    some ⟨EXTERR_DRV_LOCK_OTHER_PROC, ERRCLASS_LOCKED,
      ERRACT_ABORT_AFTER_CLEANUP, ERRLOCUS_BLOCK_DEV⟩
  | .ENOLCK =>
    some ⟨EXTERR_LOCK_COUNT_EXCEEDED, ERRCLASS_OUT_OF_RESOURCE,
      ERRACT_ABORT_AFTER_CLEANUP, ERRLOCUS_UNKNOWN⟩
  | .ENOSYS =>
    some ⟨EXTERR_INVAL_FN_NUM, ERRCLASS_INTERN_SYS_ERROR, ERRACT_IGNORE, ERRLOCUS_UNKNOWN⟩
  | .EILSEQ =>
    some ⟨EXTERR_INVAL_CHAR, ERRCLASS_BAD_FORMAT, ERRACT_IGNORE, ERRLOCUS_CHAR_DEV⟩
  | .EBADMSG | .ENOMSG =>
    some ⟨EXTERR_BAD_ARGUMENTS, ERRCLASS_BAD_FORMAT, ERRACT_IGNORE, ERRLOCUS_UNKNOWN⟩
  | .EIDRM =>
    some ⟨EXTERR_NET_NAME_DEL, ERRCLASS_NOT_FOUND, ERRACT_IGNORE, ERRLOCUS_UNKNOWN⟩
  | .EMULTIHOP =>
    some ⟨EXTERR_NET_DEV_TYPE_INCORRECT, ERRCLASS_APP_PROG_ERROR,
      ERRACT_IGNORE, ERRLOCUS_NET_RELATED⟩
  | .ENODATA =>
    some ⟨EXTERR_NO_DATA_AVAIL_NONBLOCK_READ, ERRCLASS_TMP_SITUATION,
      ERRACT_IGNORE, ERRLOCUS_NET_RELATED⟩
  | .ENOLINK =>
    some ⟨EXTERR_NET_DEV_NO_LONGER_EXISTS, ERRCLASS_HW_FAIL, ERRACT_IGNORE, ERRLOCUS_NET_RELATED⟩
  | .ENOSR =>
    some ⟨EXTERR_INSUF_MEM, ERRCLASS_OUT_OF_RESOURCE,
      ERRACT_IMMEDIATE_ABORT, ERRLOCUS_NET_RELATED⟩
  | .ENOSTR =>
    some ⟨EXTERR_NET_DEV_TYPE_INCORRECT, ERRCLASS_BAD_FORMAT,
      ERRACT_ABORT_AFTER_CLEANUP, ERRLOCUS_NET_RELATED⟩
  | .EOVERFLOW =>
    some ⟨EXTERR_SHARING_BUFFER_OVERFLOW, ERRCLASS_APP_PROG_ERROR,
      ERRACT_ABORT_AFTER_CLEANUP, ERRLOCUS_UNKNOWN⟩
  | .EPROTO =>
    some ⟨EXTERR_UNEXPECTED_NET_ERROR, ERRCLASS_MEDIA_ERROR,
      ERRACT_ABORT_AFTER_CLEANUP, ERRLOCUS_NET_RELATED⟩
  | .ETIME =>
    some ⟨EXTERR_TEMPORARILY_PAUSED, ERRCLASS_TIME, ERRACT_IGNORE, ERRLOCUS_UNKNOWN⟩
  | .ECANCELED =>
    some ⟨EXTERR_MORE_DATA_AVAIL, ERRCLASS_UNKNOWN, ERRACT_IGNORE, ERRLOCUS_UNKNOWN⟩
  | .unlisted _ => none

end Dosix

import Dosix.SearchTree.Basic
import Dosix.SearchTree.Lemmas
import Dosix.Transition.Basic
import Dosix.Footprint.Basic
import Dosix.Catalogs.Basic
import Dosix.Buffers.Basic
import Dosix.DepthFirst.Basic
import Dosix.ViablePrefix.Basic
import Dosix.Libc.Basic
import Dosix.Malloc.Impl
import Dosix.Malloc.Lemmas.Registry
import Dosix.Malloc.Lemmas.Free
import Dosix.Dos.ErrorTable
import Dosix.Dos.Basic
import Dosix.Dos.Impl.ExtErr
import Dosix.Dos.Impl.AllocMem
import Dosix.Dos.Lemmas.ExtErr
import Dosix.Dos.Lemmas.AllocMem
import Dosix.Dos.Impl.File
import Dosix.Dos.Impl.Time
import Dosix.Dos.Impl.Find
import Dosix.Dos.Impl.Console
import Dosix.Dos.Impl.Interrupt
import Dosix.Dos.Lemmas.File
import Dosix.Dos.Lemmas.Find
import Dosix.Process.Impl
import Dosix.Process.Lemmas.Cleanup
import Dosix.Dos.Lemmas.ExtErrSet
import Dosix.Dos.Lemmas.ExtErrAgree
import Dosix.Dos.Lemmas.Int86
import Dosix.Calendar.Basic
import Dosix.Calendar.Lemmas
import Dosix.Dos.Lemmas.Time
import Dosix.Dos.Lemmas.SetClock
import Dosix.Dos.Lemmas.Zone
import Dosix.Sharing.Lemmas.Enforced
import Dosix.Dos.Lemmas.FindObject
import Dosix.Dos.Lemmas.FindEnum
import Dosix.Interleaving.Basic
import Dosix.Dos.Lemmas.FindApart
import Dosix.Process.Lemmas.Exit
import Dosix.SearchTree.Comparison
import Dosix.Stdio.Impl
import Dosix.Stdio.Lemmas.Streams
import Dosix.Libc.Text
import Dosix.Attrib.Basic
import Dosix.Attrib.Impl.Traversal
import Dosix.Attrib.Lemmas.Traversal
import Dosix.Attrib.Impl.CommandLine
import Dosix.Attrib.Lemmas.CommandLine
import Dosix.Dos.Lemmas.Carry
import Dosix.Malloc.Lemmas.Failure
import Dosix.Malloc.Lemmas.Size
import Dosix.Malloc.Lemmas.Contents
import Dosix.Dos.Lemmas.BlockSize
import Dosix.Dos.Lemmas.BlockFail
import Dosix.Dos.Lemmas.FindName
import Dosix.Dos.Lemmas.Pending
import Dosix.Mask.Basic
import Dosix.Dos.Lemmas.Descriptors
import Dosix.Dos.Lemmas.FileMode
import Dosix.Attrib.Lemmas.Options
import Dosix.Dos.Lemmas.Open
import Dosix.Dos.Lemmas.Stamp
import Dosix.Dos.Lemmas.FileTime
import Dosix.Malloc.Lemmas.HeapCheck
import Dosix.Dos.Lemmas.Console
import Dosix.Dos.Lemmas.Parts
import Dosix.Dos.Lemmas.Frame
import Dosix.Dos.Lemmas.Vectors
import Dosix.Dos.Lemmas.Requests
import Dosix.Libc.Traced
import Dosix.Attrib.Impl.Target
import Dosix.Attrib.Impl.ListFile
import Dosix.Trim.Basic
import Dosix.Attrib.Lemmas.Trim
import Dosix.Attrib.Lemmas.Split
import Dosix.Attrib.Lemmas.Room
import Dosix.Attrib.Lemmas.ListFile
import Dosix.Trim.Pieces
import Dosix.Circular.Basic
import Dosix.Registry.Impl
import Dosix.Registry.Lemmas
import Dosix.Attrib.Lemmas.Output
import Dosix.Attrib.Lemmas.Switches
import Dosix.Attrib.Lemmas.Diagnosis
import Dosix.Attrib.Impl.Program
import Dosix.Attrib.Lemmas.Program
import Dosix.Attrib.Lemmas.Linked
import Dosix.Objects.Basic
import Dosix.Strings.Impl
import Dosix.Strings.Lemmas.Texts
import Dosix.Strings.Lemmas.Strdup
import Dosix.Time.Lemmas
import Dosix.Dos.Lemmas.Output
import Dosix.Dos.Lemmas.Disk
import Dosix.Dos.Lemmas.DiskSearch
import Dosix.Dos.Lemmas.DiskRuns
import Dosix.Dos.Lemmas.DiskLasts
import Dosix.Attrib.Lemmas.Shown

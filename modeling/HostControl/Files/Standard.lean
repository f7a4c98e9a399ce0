/-
Module: HostControl.Files.Standard
Purpose: The directories and files that stand on a machine before any program has run.
Main exports: Tree.standard
-/
import HostControl.Files.Tree

namespace HostControl.Tree

/-- The directories of a new machine that no other entry implies. -/
def standardDirectories : List String :=
  ["/bin", "/boot", "/dev/pts", "/dev/shm", "/home", "/lib", "/media", "/mnt", "/opt", "/proc/self",
    "/root", "/run/lock", "/sbin", "/srv", "/sys", "/tmp", "/usr/bin", "/usr/include", "/usr/lib",
    "/usr/local/bin", "/usr/local/lib", "/usr/sbin", "/usr/share", "/usr/src", "/var/cache", "/var/lib",
    "/var/log", "/var/run", "/var/tmp"]

/-- The files of a new machine, with what can be read from them. -/
def standardFiles : List (String × String) :=
  [("/dev/null", ""), ("/dev/tty", ""), ("/dev/zero", ""), ("/bin/sh", ""),
    ("/etc/group", "root:x:0:\n"), ("/etc/hostname", "host\n"),
    ("/etc/hosts", "127.0.0.1\tlocalhost\n"), ("/etc/passwd", "root:x:0:0:root:/root:/bin/bash\n"),
    ("/etc/resolv.conf", "nameserver 127.0.0.1\n")]

/-- The place that a path from the root names, without dots in it. -/
def placeOf (path : String) : Steps := (Text.parts '/' path.toList).drop 1

/-- A new machine, used in a directory of its own. -/
def standard (current : Steps) : Tree where
  nodes := standardDirectories.map (fun path => (placeOf path, .directory)) ++
    standardFiles.map fun (path, contents) => (placeOf path, .file contents)
  current := current

end HostControl.Tree

import HostAlerts.Text.Casing
import HostAlerts.Value

/-!
# Sample tables

The eight tables of samples that hosts report. Every row names its host and the time it was taken; the other
columns depend on the table. A table is found by its name or by an alias, in any letter case and with blanks
around it.
-/

namespace HostAlerts

/-- A table of samples. -/
inductive Table where
  /-- Time that the processors spent in each state. -/
  | cpuTimes
  /-- Interrupts, context switches and processes. -/
  | cpuStats
  /-- Main memory. -/
  | memory
  /-- Swap space. -/
  | swap
  /-- Load averages. -/
  | loadAverage
  /-- Space on mounted file systems. -/
  | disks
  /-- Traffic of network interfaces. -/
  | networks
  /-- Traffic of block devices. -/
  | blocks
deriving DecidableEq, Repr, Inhabited

/-- What a column of a sample table holds. -/
inductive ColumnKind where
  /-- Whole numbers. -/
  | whole
  /-- Numbers. -/
  | real
  /-- Texts. -/
  | text
deriving DecidableEq, Repr

/-- A column of a sample table. -/
structure Column where
  /-- Name of the column. -/
  name : String
  /-- What it holds. -/
  kind : ColumnKind := .whole
deriving DecidableEq, Repr

/-- What a row holds in a column that it was not given. -/
def ColumnKind.default : ColumnKind → Value
  | whole => .int 0
  | real => .float 0.0
  | text => .text ""

namespace Table

/-- Every table. -/
def all : List Table := [cpuTimes, cpuStats, memory, swap, loadAverage, disks, networks, blocks]

/-- The name of a table. -/
def name : Table → String
  | cpuTimes => "cputimes"
  | cpuStats => "cpustats"
  | memory => "memory"
  | swap => "swap"
  | loadAverage => "loadavg"
  | disks => "disks"
  | networks => "ionets"
  | blocks => "ioblocks"

/-- Other names of tables. -/
def aliases : List (String × Table) := [
  ("cpu_times", cpuTimes), ("cpu_stats", cpuStats), ("disk", disks), ("io_net", networks),
  ("ionet", networks), ("io_block", blocks), ("ioblock", blocks), ("load_avg", loadAverage)]

/-- The table of a name or alias. -/
def find? (text : String) : Option Table :=
  let key := Text.lowerText (Text.trimText text)
  (aliases.lookup key) <|> all.find? (·.name == key)

/-- The columns of a table that hold what was measured. -/
def metrics : Table → List Column
  | cpuTimes =>
    ["cuser", "nice", "system", "idle", "iowait", "irq", "softirq", "steal", "guest", "guest_nice"].map
      ({ name := · })
  | cpuStats =>
    ["interrupts", "ctx_switches", "soft_interrupts", "processes", "procs_running", "procs_blocked"].map
      ({ name := · })
  | memory => ["total", "free", "used", "shared", "buffers", "cached"].map ({ name := · })
  | swap => ["total", "free", "used"].map ({ name := · })
  | loadAverage => ["one", "five", "fifteen"].map ({ name := ·, kind := .real })
  | disks => [⟨"disk_name", .text⟩, ⟨"mount_point", .text⟩, ⟨"total_space", .whole⟩, ⟨"avail_space", .whole⟩]
  | networks =>
    ⟨"interface", .text⟩ ::
      ["rx_bytes", "rx_packets", "rx_errs", "rx_drop", "tx_bytes", "tx_packets", "tx_errs", "tx_drop"].map
        ({ name := · })
  | blocks =>
    ⟨"device_name", .text⟩ ::
      ["read_count", "read_bytes", "write_count", "write_bytes", "busy_time"].map ({ name := · })

/-- The names of a table's columns: the host and the time, then what was measured. -/
def columns (t : Table) : List String :=
  "host_uuid" :: "created_at" :: t.metrics.map (·.name)

end Table

end HostAlerts

-- The commands of `shell.c`: a line is cut into tokens, and every registered command that has
-- the name of the first one is called with them.
import SakanaOS.Ata
import SakanaOS.Devices
import SakanaOS.KernelLog
import SakanaOS.ShellCommands
import SakanaOS.Tokens

open byte_memory

namespace sakana_os

open in_memory

/-! ## What the commands work with -/

/-- The kernel as the shell sees it: the memory with the heap and the drives, the characters
that went to the output of the terminal, how often its screen was cleaned, and the `static`
pointer of `strtok`. -/
structure ShellState where
  storage : Storage
  sent : List UInt8
  cleaned : Nat
  strtok_s : Nat

namespace ShellState

def kheap (t : ShellState) : Kheap := t.storage.kheap

def mem (t : ShellState) : Mem := t.storage.kheap.mem

def setKheap (t : ShellState) (k : Kheap) : ShellState :=
  { t with storage := { t.storage with kheap := k } }

def setMem (t : ShellState) (m : Mem) : ShellState := { t with storage := t.storage.setMem m }

def setStorage (t : ShellState) (storage : Storage) : ShellState := { t with storage }

def setStrtok (t : ShellState) (k : Strtok) : ShellState :=
  { t.setMem k.mem with strtok_s := k.s }

end ShellState

/-- A handler, with the shell and its arguments. -/
abbrev ShellCall : Type := Nat → Nat → Nat → ShellState → Outcome ShellState Int

/-! ## The output -/

def shell_out_stream (m : Mem) (s : Nat) : Nat := load32 m (s + 8)

/-- The offset of `buf` in a `stream_t`. -/
def STREAM_BUF_OFFSET : Nat := 20

/-- `sizeof(stream_t)` -/
def SIZEOF_STREAM : Nat := 52

/-- `stream_puts` of a literal. -/
def stream_puts (t : ShellState) (str : String) : ShellState :=
  { t with sent := t.sent ++ literal str }

/-- `stream_puts` of what stands in memory. -/
def stream_puts_at (t : ShellState) (str : Nat) : Outcome ShellState Unit :=
  match string_at t.mem 4294967296 str with
  | none => .hang t
  | some chars => .done () { t with sent := t.sent ++ chars }

/-- The string at `p`, as an argument of a formatter. -/
def cstring_at (m : Mem) (p : Nat) : Option CString :=
  (string_at m 4294967296 p).pmap
    (fun chars (h : (∀ c ∈ chars, c ≠ 0) ∧ chars.length < 4294967296) => ⟨chars, h.1, h.2⟩)
    fun _ h => ⟨(string_at_spec h).1.nonzero, (string_at_spec h).2⟩

/-- `stream_printf` to the output of the shell, which gets no doubles. -/
def stream_printf (t : ShellState) (s : Nat) (fmt : CString) (args : List (Arg Empty)) :
    Outcome ShellState Nat :=
  match stream_vprintf (fun n _ => n.elim) ⟨t.mem, t.sent⟩
      (shell_out_stream t.mem s + STREAM_BUF_OFFSET) fmt args with
  | .ok (count, stream) => .done count { t.setMem stream.mem with sent := stream.sent }
  | .error .no_nul => .hang t
  | .error _ => .fault t

/-- `[%d] %s\n` -/
def helpFormat : CString := ⟨literal "[%d] %s\n", by decide +kernel, by decide +kernel⟩

def enabledFormat : CString := ⟨literal "heap_enabled: %s\n", by decide +kernel, by decide +kernel⟩

def blockFormat : CString := ⟨literal "[%d] s=%d, f=%d.\n", by decide +kernel, by decide +kernel⟩

def totalFormat : CString := ⟨literal "tot = %x.\n", by decide +kernel, by decide +kernel⟩

def failedFormat : CString :=
  ⟨literal "Fail to execute: %s\n", by decide +kernel, by decide +kernel⟩

def trueString : CString := ⟨literal "True", by decide +kernel, by decide +kernel⟩

def falseString : CString := ⟨literal "False", by decide +kernel, by decide +kernel⟩

/-! ## The handlers -/

/-- The loop of `shell_execute_help` over the list of commands. -/
def shell_help_loop (s : Nat) : Nat → Nat → Nat → ShellState → Outcome ShellState Unit
  | 0, _, _, t => .hang t
  | turns + 1, node, i, t =>
    if node = NULL then .done () t
    else
      let c := node_data t.mem node
      match cstring_at t.mem (command_name t.mem c) with
      | none => .hang t
      | some name =>
        (stream_printf t s helpFormat [.word (UInt32.ofNat (i + 1)), .string name]).andThen
          fun _ t => shell_help_loop s turns (node_next t.mem node) (i + 1) t

def shell_execute_help (s _argc _argv : Nat) (t : ShellState) : Outcome ShellState Int :=
  (shell_help_loop s 4294967296 (list_head t.mem (shell_commands_list t.mem s)) 0 t).andThen
    fun _ t => .done 0 t

def shell_execute_clear (_s _argc _argv : Nat) (t : ShellState) : Outcome ShellState Int :=
  .done 0 { t with cleaned := t.cleaned + 1 }

/-- The body of the loop of `shell_execute_message`. -/
def shell_message_turn (t : ShellState) (log : Nat) : Outcome ShellState Unit :=
  let level := load32 t.mem log
  let t := stream_puts t "["
  let t := if level = KMESSAGE_LEVEL_PANIC then stream_puts t "DEBUG" else t
  let t := if level = KMESSAGE_LEVEL_INFO then stream_puts t "INFO" else t
  let t := if level = KMESSAGE_LEVEL_WARN then stream_puts t "WARN" else t
  let t := if level = KMESSAGE_LEVEL_ERROR then stream_puts t "ERROR" else t
  let t := stream_puts t "] "
  (stream_puts_at t (log + 4)).andThen fun _ t => .done () (stream_puts t "\n")

def shell_message_loop : List Nat → ShellState → Outcome ShellState Unit
  | [], t => .done () t
  | element :: elements, t =>
    (shell_message_turn t element).andThen fun _ t => shell_message_loop elements t

def shell_execute_message (log_buffer : circular_buffer) (_s _argc _argv : Nat) (t : ShellState) :
    Outcome ShellState Int :=
  (shell_message_loop (circular_buffer_foreach log_buffer) t).andThen fun _ t => .done 0 t

/-- The loop of `shell_execute_memory` over the blocks of the heap. -/
def shell_memory_loop (s : Nat) : Nat → Nat → Nat → Nat → ShellState → Outcome ShellState Nat
  | 0, _, _, _, t => .hang t
  | turns + 1, block, i, allmemory, t =>
    if block = NULL then .done allmemory t
    else
      (stream_printf t s blockFormat [.word (UInt32.ofNat i),
        .word (UInt32.ofNat (head_size t.mem block)),
        .word (UInt32.ofNat (head_free t.mem block))]).andThen fun _ t =>
          let allmemory := add32 allmemory (add32 (head_size t.mem block) SIZEOF_HEAD)
          shell_memory_loop s turns (head_next t.mem block) (i + 1) allmemory t

def shell_execute_memory (s _argc _argv : Nat) (t : ShellState) : Outcome ShellState Int :=
  let heap_enabled := t.kheap.kheap_enabled
  (stream_printf t s enabledFormat
      [.string (if heap_enabled then trueString else falseString)]).andThen fun _ t =>
    (if heap_enabled then shell_memory_loop s 4294967296 t.kheap.kheap_head 0 0 t
      else .done 0 t).andThen fun allmemory t =>
        (stream_printf t s totalFormat [.word (UInt32.ofNat allmemory)]).andThen fun _ t =>
          .done 0 t

def DEVICE_TYPE_STORAGE : UInt16 := 0x0200

/-- The devices of the kernel: the tree, what the searches read of a device, and the drive that
the driver of a storage device reads and writes. -/
structure DeviceTree where
  registry : Registry
  devices : Nat → device
  driver : Nat → ata_device

def storage_device (d : DeviceTree) : Option Nat :=
  device_find_by_type d.devices d.registry DEVICE_TYPE_STORAGE

def shell_execute_ata_read (d : DeviceTree) (_s argc argv : Nat) (t : ShellState) :
    Outcome ShellState Int :=
  if argc = 3 then
    match string_at t.mem 4294967296 (load32 t.mem (argv + 4)),
        string_at t.mem 4294967296 (load32 t.mem (argv + 8)), storage_device d with
    | some arg1, some arg2, some device =>
      let addr := atoi arg1
      let read_size := atoi arg2
      ((kmalloc t.kheap (add32 read_size 1)).lift t.setKheap).andThen fun data t =>
        -- the driver of a device that was not found
        if device = NULL then .fault t
        else
          ((ata_read t.storage (d.driver device) addr data read_size).lift t.setStorage).andThen
            fun _ t =>
              let t := t.setMem (store8 t.mem (add32 data read_size) 0)
              let t := stream_puts t "read: "
              (stream_puts_at t data).andThen fun _ t =>
                let t := stream_puts t "\n"
                ((kfree t.kheap data).lift t.setKheap).andThen fun _ t => .done 0 t
    | _, _, _ => .hang t
  else .done (-1) t

def shell_execute_ata_write (d : DeviceTree) (_s argc argv : Nat) (t : ShellState) :
    Outcome ShellState Int :=
  if argc = 3 then
    let data := load32 t.mem (argv + 8)
    match string_at t.mem 4294967296 (load32 t.mem (argv + 4)), string_at t.mem 4294967296 data,
        storage_device d with
    | some arg1, some arg2, some device =>
      let addr := atoi arg1
      let write_size := arg2.length
      if device = NULL then .fault t
      else
        ((ata_write t.storage (d.driver device) addr data write_size).lift t.setStorage).andThen
          fun _ t => .done 0 t
    | _, _, _ => .hang t
  else .done (-1) t

def shell_execute_interrupt (isr_interrupt : Nat → ShellState → Outcome ShellState Unit)
    (_s argc argv : Nat) (t : ShellState) : Outcome ShellState Int :=
  if argc = 2 then
    match string_at t.mem 4294967296 (load32 t.mem (argv + 4)) with
    | some arg1 => (isr_interrupt (atoi arg1) t).andThen fun _ t => .done 0 t
    | none => .hang t
  else .done (-1) t

/-- The handlers that `shell_create` registers. -/
inductive ShellCommand where
  | help
  | clear
  | message
  | memory
  | ata_read
  | ata_write
  | interrupt
  deriving DecidableEq, Repr

/-- What the handlers use beside the shell, and which of them starts at an address. -/
structure ShellEnv where
  log_buffer : circular_buffer
  devices : DeviceTree
  isr_interrupt : Nat → ShellState → Outcome ShellState Unit
  functions : Nat → Option ShellCommand

def ShellEnv.handler (env : ShellEnv) : ShellCommand → ShellCall
  | .help => shell_execute_help
  | .clear => shell_execute_clear
  | .message => shell_execute_message env.log_buffer
  | .memory => shell_execute_memory
  | .ata_read => shell_execute_ata_read env.devices
  | .ata_write => shell_execute_ata_write env.devices
  | .interrupt => shell_execute_interrupt env.isr_interrupt

def ShellEnv.calls (env : ShellEnv) (function : Nat) : Option ShellCall :=
  (env.functions function).map env.handler

/-! ## A line -/

/-- What the shell says when a handler fails. -/
def shell_report_errno (s name : Nat) (errno : Int) (t : ShellState) : Outcome ShellState Unit :=
  if errno = 0 then .done () t
  else
    match cstring_at t.mem name with
    | none => .hang t
    | some str =>
      (stream_printf t s failedFormat [.string str]).andThen fun _ t => .done () t

section

variable (calls : Nat → Option ShellCall)

/-- The loop of `shell_execute_command` over the list of commands. `calls` is what stands at
the address of a function. -/
def shell_call_loop (s name argc argv : Nat) :
    Nat → Nat → Bool → ShellState → Outcome ShellState Bool
  | 0, _, _, t => .hang t
  | turns + 1, node, unknown, t =>
    if node = NULL then .done unknown t
    else
      let c := node_data t.mem node
      match string_at t.mem 4294967296 name,
          string_at t.mem 4294967296 (command_name t.mem c) with
      | some str1, some str2 =>
        if strcmp str1 str2 = 0 then
          match calls (command_call t.mem c) with
          | none => .fault t
          | some call =>
            (call s argc argv t).andThen fun errno t =>
              (shell_report_errno s name errno t).andThen fun _ t =>
                shell_call_loop s name argc argv turns (node_next t.mem node) false t
        else shell_call_loop s name argc argv turns (node_next t.mem node) unknown t
      | _, _ => .hang t

/-- The loop that counts the spaces of the line. -/
def shell_count_spaces (m : Mem) (inputs : Nat) : Nat → Nat → Nat → Nat
  | 0, _, num_ws => num_ws
  | turns + 1, i, num_ws =>
    shell_count_spaces m inputs turns (i + 1)
      (if m (inputs + i) = ' '.toUInt8 then add32 num_ws 1 else num_ws)

def shell_execute_command (s inputs : Nat) (t : ShellState) : Outcome ShellState Unit :=
  match string_at t.mem 4294967296 inputs with
  | none => .hang t
  | some line =>
    let num_ws := shell_count_spaces t.mem inputs line.length 0 0
    ((kmalloc t.kheap (mul32 (add32 num_ws 1) 4)).lift t.setKheap).andThen fun argv t =>
      match strtok ⟨t.mem, t.strtok_s⟩ inputs [' '.toUInt8] with
      | none => .hang t
      | some (token, k) =>
        if token = NULL then .done () (t.setStrtok k)
        else
          match shell_argv_loop argv 4294967296 0 token k with
          | none => .hang t
          | some (argc, k) =>
            let t := t.setStrtok k
            let name := load32 t.mem argv
            (shell_call_loop calls s name argc argv 4294967296
                (list_head t.mem (shell_commands_list t.mem s)) true t).andThen fun unknown t =>
              ((kfree t.kheap argv).lift t.setKheap).andThen fun _ t =>
                .done () (if unknown then stream_puts t "Unknown command\n" else t)

end

end sakana_os

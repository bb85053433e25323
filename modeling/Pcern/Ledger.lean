import Mathlib.Data.List.Basic
import Mathlib.Data.List.Nodup
import Mathlib.Data.List.Perm.Basic
import Mathlib.Data.List.Range

/-!
Accounting for queues that serve many keys at once. Every item gets the next
serial number when it is issued, waits in a queue, and leaves it once: it is
delivered, or refused. `Accounts` says that the books balance (every serial is
in exactly one of the three places) and that items of one key are delivered in
the order they were issued, which holds because a delivery takes the first
waiting item of its key. `Vouched` ties every entry to the record that made it.
-/
namespace Pcern.Ledger

/-- What happened to the items so far. The serial of an item is its place in
    `issued`; `delivered` keeps a receipt with every serial. -/
structure Books (ι ρ : Type) where
  issued : List ι
  delivered : List (Nat × ρ)
  refused : List Nat

variable {ι ρ κ : Type} [DecidableEq κ]

def Books.empty : Books ι ρ := ⟨[], [], []⟩

def Books.issue (books : Books ι ρ) (item : ι) : Books ι ρ := { books with issued := books.issued ++ [item] }

def Books.next (books : Books ι ρ) : Nat := books.issued.length

/-- The item with this serial leaves the queue with a receipt. -/
def Books.deliver (books : Books ι ρ) (serial : Nat) (receipt : ρ) : Books ι ρ :=
  { books with delivered := books.delivered ++ [(serial, receipt)] }

/-- The items with these serials leave the queue undelivered. -/
def Books.refuse (books : Books ι ρ) (serials : List Nat) : Books ι ρ :=
  { books with refused := books.refused ++ serials }

/-- The item with this serial was issued for key `k`. -/
def hasKey (key : ι → κ) (issued : List ι) (k : κ) (serial : Nat) : Bool :=
  issued[serial]?.any fun item => decide (key item = k)

/-- The serials delivered for key `k`, in the order of delivery. -/
def Books.deliveredFor (key : ι → κ) (books : Books ι ρ) (k : κ) : List Nat :=
  (books.delivered.map Prod.fst).filter (hasKey key books.issued k)

/-- The serials waiting for key `k`, in queue order. -/
def waitingFor (key : ι → κ) (queue : List (Nat × ι)) (k : κ) : List Nat :=
  (queue.filter fun entry => decide (key entry.2 = k)).map Prod.fst

/-- The books balance against the queue of waiting items. -/
structure Accounts (key : ι → κ) (books : Books ι ρ) (queue : List (Nat × ι)) : Prop where
  balance : (books.delivered.map Prod.fst ++ books.refused ++ queue.map Prod.fst).Perm
    (List.range books.issued.length)
  recorded : ∀ entry ∈ queue, books.issued[entry.1]? = some entry.2
  ordered : ∀ k, (books.deliveredFor key k ++ waitingFor key queue k).Pairwise (· < ·)

theorem accounts_empty (key : ι → κ) : Accounts key (Books.empty : Books ι ρ) [] :=
  ⟨by simp [Books.empty], by simp, by simp [Books.empty, Books.deliveredFor, waitingFor]⟩

section
variable {key : ι → κ} {books : Books ι ρ} {queue : List (Nat × ι)}

section
variable (accounts : Accounts key books queue)
include accounts

theorem Accounts.delivered_lt {n : Nat}
    (member : n ∈ books.delivered.map Prod.fst) : n < books.issued.length :=
  List.mem_range.mp (accounts.balance.mem_iff.mp (by simp [member]))

theorem Accounts.queued_lt {n : Nat}
    (member : n ∈ queue.map Prod.fst) : n < books.issued.length :=
  List.mem_range.mp (accounts.balance.mem_iff.mp (by simp [member]))

/-- Every issued item is in one place, and only there. -/
theorem Accounts.once (serial : Nat) :
    (books.delivered.map Prod.fst).count serial + books.refused.count serial + (queue.map Prod.fst).count serial =
      if serial < books.issued.length then 1 else 0 := by
  have counted := accounts.balance.count_eq serial
  rw [List.count_append, List.count_append] at counted
  simpa only [List.nodup_range.count, List.mem_range] using counted

/-- The items of a key are delivered in the order in which they were issued. -/
theorem Accounts.inOrder (k : κ) : (books.deliveredFor key k).Pairwise (· < ·) :=
  (List.pairwise_append.mp (accounts.ordered k)).1

theorem Accounts.issue (item : ι) :
    Accounts key (books.issue item) (queue ++ [(books.next, item)]) := by
  have older : ∀ n < books.issued.length, (books.issue item).issued[n]? = books.issued[n]? :=
    fun n below => List.getElem?_append_left below
  refine ⟨?_, ?_, ?_⟩
  · have grown := accounts.balance.append_right [books.issued.length]
    simpa [Books.issue, Books.next, List.range_succ] using grown
  · intro entry member
    rcases List.mem_append.mp member with old | new
    · rw [older _ (accounts.queued_lt (List.mem_map_of_mem old))]
      exact accounts.recorded entry old
    · rw [List.mem_singleton.mp new]
      simp [Books.issue, Books.next]
  · intro k
    have sameDelivered : (books.issue item).deliveredFor key k = books.deliveredFor key k := by
      refine List.filter_congr fun n member => ?_
      simp only [hasKey, older n (accounts.delivered_lt member)]
    have waiting : waitingFor key (queue ++ [(books.next, item)]) k =
        waitingFor key queue k ++ if key item = k then [books.next] else [] := by
      by_cases same : key item = k <;> simp [waitingFor, same]
    rw [sameDelivered, waiting, ← List.append_assoc]
    by_cases same : key item = k
    · rw [if_pos same]
      refine List.pairwise_append.mpr ⟨accounts.ordered k, by simp, ?_⟩
      intro n member last isLast
      rw [List.mem_singleton.mp isLast]
      rcases List.mem_append.mp member with delivered | waits
      · exact accounts.delivered_lt (List.mem_of_mem_filter delivered)
      · simp only [waitingFor, List.mem_map, List.mem_filter] at waits
        obtain ⟨entry, ⟨queued, _⟩, rfl⟩ := waits
        exact accounts.queued_lt (List.mem_map_of_mem queued)
    · simpa [same] using accounts.ordered k

end

theorem Accounts.deliver {front back : List (Nat × ι)} {serial : Nat} {item : ι}
    (accounts : Accounts key books (front ++ (serial, item) :: back))
    (first : ∀ entry ∈ front, key entry.2 ≠ key item) (receipt : ρ) :
    Accounts key (books.deliver serial receipt) (front ++ back) := by
  have issued : books.issued[serial]? = some item := accounts.recorded (serial, item) (by simp)
  refine ⟨?_, ?_, ?_⟩
  · refine List.Perm.trans ?_ accounts.balance
    simp only [Books.deliver, List.map_append, List.map_cons, List.map_nil, List.append_assoc, List.singleton_append]
    refine List.Perm.append_left _ ?_
    have moved := (@List.perm_middle _ serial (books.refused ++ front.map Prod.fst) (back.map Prod.fst)).symm
    simpa [List.append_assoc] using moved
  · intro entry member
    exact accounts.recorded entry (by
      rcases List.mem_append.mp member with inFront | inBack
      · simp [inFront]
      · simp [inBack])
  · intro k
    have before := accounts.ordered k
    have delivered : (books.deliver serial receipt).deliveredFor key k =
        books.deliveredFor key k ++ if key item = k then [serial] else [] := by
      have keyed : hasKey key books.issued k serial = decide (key item = k) := by simp [hasKey, issued]
      by_cases same : key item = k <;> simp [Books.deliveredFor, Books.deliver, List.filter_append, keyed, same]
    by_cases same : key item = k
    · -- The delivered serial moves from the head of the waiting ones to the end of the delivered ones.
      have noneInFront : front.filter (fun entry => decide (key entry.2 = k)) = [] := by
        rw [List.filter_eq_nil_iff]
        intro entry member
        simpa [← same] using first entry member
      simpa [delivered, waitingFor, List.filter_append, noneInFront, same] using before
    · simpa [delivered, waitingFor, List.filter_append, same] using before

theorem Accounts.refuse (accounts : Accounts key books queue) (keep : Nat × ι → Bool) :
    Accounts key (books.refuse ((queue.filter fun entry => !keep entry).map Prod.fst)) (queue.filter keep) := by
  refine ⟨?_, ?_, ?_⟩
  · refine List.Perm.trans ?_ accounts.balance
    simp only [Books.refuse, List.append_assoc]
    refine List.Perm.append_left _ (List.Perm.append_left _ ?_)
    rw [← List.map_append]
    exact (List.perm_append_comm.trans (List.filter_append_perm keep queue)).map _
  · intro entry member
    exact accounts.recorded entry (List.mem_of_mem_filter member)
  · intro k
    refine (accounts.ordered k).sublist ?_
    refine List.Sublist.append (List.Sublist.refl _) (List.Sublist.map _ ?_)
    exact (List.filter_sublist (p := keep) (l := queue)).filter _

end

/-! ## Who made an entry -/

/-- `a` is new at place `i`. -/
def Adds {α : Type} (before after : List α) (i : Nat) (a : α) : Prop := before.length ≤ i ∧ after[i]? = some a

/-- What is entered between two states of the books, all of it for a reason. -/
structure Enters (issues : ι → Prop) (delivers : ι → ρ → Prop) (refuses : ι → Prop) (before after : Books ι ρ) : Prop where
  issued : ∃ new, after.issued = before.issued ++ new ∧ ∀ item ∈ new, issues item
  delivered : ∃ new, after.delivered = before.delivered ++ new ∧
    ∀ entry ∈ new, ∃ item, after.issued[entry.1]? = some item ∧ delivers item entry.2
  refused : ∃ new, after.refused = before.refused ++ new ∧
    ∀ serial ∈ new, ∃ item, after.issued[serial]? = some item ∧ refuses item

/-- Every entry of the books was made, for a reason, by the record of the history that has it after but not before. -/
structure Vouched {ω : Type} (pre post : ω → Books ι ρ) (issues : ω → ι → Prop) (delivers : ω → ι → ρ → Prop)
    (refuses : ω → ι → Prop) (h : List ω) (books : Books ι ρ) : Prop where
  issued : ∀ i item, books.issued[i]? = some item → ∃ r ∈ h, Adds (pre r).issued (post r).issued i item ∧ issues r item
  delivered : ∀ i entry, books.delivered[i]? = some entry → ∃ r ∈ h, Adds (pre r).delivered (post r).delivered i entry ∧
    ∃ item, books.issued[entry.1]? = some item ∧ delivers r item entry.2
  refused : ∀ i serial, books.refused[i]? = some serial → ∃ r ∈ h, Adds (pre r).refused (post r).refused i serial ∧
    ∃ item, books.issued[serial]? = some item ∧ refuses r item

section
variable {issues : ι → Prop} {delivers : ι → ρ → Prop} {refuses : ι → Prop} {before after : Books ι ρ}

theorem enters_refl (books : Books ι ρ) : Enters issues delivers refuses books books :=
  ⟨⟨[], by simp⟩, ⟨[], by simp⟩, ⟨[], by simp⟩⟩

theorem enters_issue (books : Books ι ρ) {item : ι} (reason : issues item) :
    Enters issues delivers refuses books (books.issue item) :=
  ⟨⟨[item], rfl, by simpa using reason⟩, ⟨[], by simp [Books.issue]⟩, ⟨[], by simp [Books.issue]⟩⟩

theorem enters_deliver {books : Books ι ρ} {serial : Nat} {item : ι} {receipt : ρ}
    (recorded : books.issued[serial]? = some item) (reason : delivers item receipt) :
    Enters issues delivers refuses books (books.deliver serial receipt) :=
  ⟨⟨[], by simp [Books.deliver]⟩, ⟨[(serial, receipt)], rfl, by simpa using ⟨item, recorded, reason⟩⟩,
    ⟨[], by simp [Books.deliver]⟩⟩

/-- An item is issued and delivered at once. -/
theorem enters_direct (books : Books ι ρ) {item : ι} {receipt : ρ} (reason : issues item) (reason' : delivers item receipt) :
    Enters issues delivers refuses books ((books.issue item).deliver books.next receipt) := by
  refine ⟨⟨[item], rfl, by simpa using reason⟩, ⟨[(books.next, receipt)], rfl, ?_⟩, ⟨[], by simp [Books.issue, Books.deliver]⟩⟩
  simpa [Books.issue, Books.deliver, Books.next] using reason'

theorem enters_refuse {books : Books ι ρ} {serials : List Nat}
    (each : ∀ serial ∈ serials, ∃ item, books.issued[serial]? = some item ∧ refuses item) :
    Enters issues delivers refuses books (books.refuse serials) :=
  ⟨⟨[], by simp [Books.refuse]⟩, ⟨[], by simp [Books.refuse]⟩, ⟨serials, rfl, each⟩⟩

theorem getElem?_append_or {α : Type} {l new : List α} {i : Nat} {a : α} (found : (l ++ new)[i]? = some a) :
    l[i]? = some a ∨ Adds l (l ++ new) i a ∧ a ∈ new := by
  rcases Nat.lt_or_ge i l.length with old | beyond
  · rw [List.getElem?_append_left old] at found
    exact .inl found
  · refine .inr ⟨⟨beyond, found⟩, ?_⟩
    rw [List.getElem?_append_right beyond] at found
    exact List.mem_of_getElem? found

end

theorem Vouched.empty {ω : Type} {pre post : ω → Books ι ρ} {issues : ω → ι → Prop} {delivers : ω → ι → ρ → Prop}
    {refuses : ω → ι → Prop} : Vouched pre post issues delivers refuses [] (Books.empty : Books ι ρ) :=
  ⟨by simp [Books.empty], by simp [Books.empty], by simp [Books.empty]⟩

/-- The books stay vouched for when a record enters what it has a reason for. -/
theorem Vouched.snoc {ω : Type} {pre post : ω → Books ι ρ} {issues : ω → ι → Prop} {delivers : ω → ι → ρ → Prop}
    {refuses : ω → ι → Prop} {h : List ω} {r : ω} (vouched : Vouched pre post issues delivers refuses h (pre r))
    (enters : Enters (issues r) (delivers r) (refuses r) (pre r) (post r)) :
    Vouched pre post issues delivers refuses (h ++ [r]) (post r) := by
  obtain ⟨⟨items, issued, byIssue⟩, ⟨entries, delivered, byDelivery⟩, ⟨serials, refused, byRefusal⟩⟩ := enters
  have last : r ∈ h ++ [r] := List.mem_append_right _ (List.mem_singleton.mpr rfl)
  have older : ∀ {serial : Nat} {item : ι}, (pre r).issued[serial]? = some item → (post r).issued[serial]? = some item := by
    intro serial item found
    have inside := (List.getElem?_eq_some_iff.mp found).1
    rw [issued, List.getElem?_append_left inside, found]
  refine ⟨fun i item found => ?_, fun i entry found => ?_, fun i serial found => ?_⟩
  · rw [issued] at found
    rcases getElem?_append_or found with old | ⟨added, new⟩
    · obtain ⟨r', member, rest⟩ := vouched.issued i item old
      exact ⟨r', List.mem_append_left _ member, rest⟩
    · exact ⟨r, last, issued ▸ added, byIssue item new⟩
  · rw [delivered] at found
    rcases getElem?_append_or found with old | ⟨added, new⟩
    · obtain ⟨r', member, added, item, recorded, reason⟩ := vouched.delivered i entry old
      exact ⟨r', List.mem_append_left _ member, added, item, older recorded, reason⟩
    · exact ⟨r, last, delivered ▸ added, byDelivery entry new⟩
  · rw [refused] at found
    rcases getElem?_append_or found with old | ⟨added, new⟩
    · obtain ⟨r', member, added, item, recorded, reason⟩ := vouched.refused i serial old
      exact ⟨r', List.mem_append_left _ member, added, item, older recorded, reason⟩
    · exact ⟨r, last, refused ▸ added, byRefusal serial new⟩

end Pcern.Ledger

import A64Machine.Assembler
import A64Machine.Proofs.Outcome

/-!
# Where lines are placed

The first pass gives every line an address and every label the address of its line. Which address
that is depends on the line alone, on the end of the lines before it, and on the labels of those
lines. An alignment never moves back, so lines are placed behind each other unless an `.org` goes
back behind the end of the lines before it.
-/

namespace A64Machine

namespace Assembler

open Directive

/-- Lines of a source with the addresses at which they are laid out. -/
abbrev Listing := List (SourceLine × Nat)

namespace Listing

/-- The address behind the last line of a listing that begins at an address. -/
def endFrom : (address : Nat) → Listing → Nat
  | address, [] => address
  | _, (line, there) :: rest => endFrom (there + lineSize line) rest

/-- The labels of the lines with their addresses. -/
def symbols (listing : Listing) : SymbolMap :=
  listing.filterMap fun entry => entry.1.label.map fun name => (name, (entry.2 : Int))

/-- The line at an address as it was laid out without an error. -/
def place (entry : SourceLine × Nat) : PlacedLine := ⟨.ok entry.1, entry.2, none⟩

/-- No `.org` moves the address back behind the end of the lines before it. -/
def NeverBack (listing : Listing) : Prop :=
  ∀ before line address after, listing = before ++ (line, address) :: after →
    line.mnemonic = some ".org" → endFrom 0 before ≤ address

theorem symbols_append (listing other : Listing) :
    symbols (listing ++ other) = listing.symbols ++ other.symbols :=
  List.filterMap_append ..

end Listing

/-- The listing of a source; lines that cannot be read are left out. -/
def listing (assembler : Assembler) (lines : List String) : Listing :=
  match (layout assembler.size [] 0 (lines.map SourceLine.parse)).1 with
  | .ok placed =>
    placed.filterMap fun placed => placed.line.toOption.map fun line => (line, placed.address)
  | .error _ => []

open Listing

/-- The address of a line, given the symbols of the lines before it and the address behind them: an
`.org` goes where it says, an `.align` goes on to the next multiple of a power of two, and all other
lines stay where they are. -/
def IsPlaced (symbols : SymbolMap) (behind : Nat) (line : SourceLine) (address : Nat) : Prop :=
  if line.mnemonic = some ".org" then directiveValue symbols behind line = .ok (address : Int)
  else if line.mnemonic = some ".align" then
    ∃ power : Nat, directiveValue symbols behind line = .ok (power : Int) ∧
      behind ≤ address ∧ address < behind + 2 ^ power ∧ 2 ^ power ∣ address
  else address = behind

/-- Rounding up goes on to the next multiple. -/
theorem roundUp_spec (address : Nat) {boundary : Nat} (positive : 0 < boundary) :
    address ≤ (address + boundary - 1) / boundary * boundary ∧
      (address + boundary - 1) / boundary * boundary < address + boundary := by
  have split := Nat.div_add_mod (address + boundary - 1) boundary
  have small := Nat.mod_lt (address + boundary - 1) positive
  rw [Nat.mul_comm] at split
  omega

variable {size behind address : Nat} {known symbols : SymbolMap} {line : SourceLine}
  {before after listed : Listing}

/-- A line that has an address is placed there. -/
theorem isPlaced_of_lineAddress (placed : lineAddress size known behind line = .ok address) :
    IsPlaced known behind line address := by
  unfold lineAddress at placed
  unfold IsPlaced
  cases named : line.mnemonic with
  | none =>
    rw [named] at placed
    exact (Except.ok.inj placed).symm
  | some mnemonic =>
    rw [named] at placed
    simp only [Option.some.injEq] at placed ⊢
    by_cases layouts : isLayout mnemonic = true
    · rw [if_pos layouts] at placed
      obtain ⟨value, valued, placed⟩ := bind_eq_ok.mp placed
      by_cases org : mnemonic = ".org"
      · rw [if_pos org] at placed ⊢
        split at placed
        · rename_i bounds
          rw [← Except.ok.inj placed, Int.toNat_of_nonneg bounds.1]
          exact valued
        · contradiction
      · have align : mnemonic = ".align" := by
          simpa [isLayout, org] using layouts
        rw [if_neg org] at placed ⊢
        rw [if_pos align]
        split at placed
        · rename_i bounds
          rw [← Except.ok.inj placed]
          obtain ⟨above, below⟩ := roundUp_spec behind (Nat.two_pow_pos value.toNat)
          refine ⟨value.toNat, ?_, above, below, Nat.dvd_mul_left ..⟩
          rw [Int.toNat_of_nonneg bounds.1]
          exact valued
        · contradiction
    · have other : mnemonic ≠ ".org" ∧ mnemonic ≠ ".align" := by
        simpa [isLayout] using layouts
      rw [if_neg layouts] at placed
      rw [if_neg other.1, if_neg other.2]
      split at placed
      · contradiction
      · exact (Except.ok.inj placed).symm

/-- A line that is laid out has a label that is not known yet, if it has one. -/
theorem layoutLine_eq_ok (laid : layoutLine size known behind line = .ok (address, symbols)) :
    IsPlaced known behind line address ∧ symbols = known ++ Listing.symbols [(line, address)] ∧
      ∀ name, line.label = some name → known.lookup name = none := by
  obtain ⟨there, placed, laid⟩ := bind_eq_ok.mp laid
  cases labelled : line.label with
  | none =>
    rw [labelled] at laid
    obtain ⟨rfl, rfl⟩ := Prod.mk.inj (Except.ok.inj laid)
    refine ⟨isPlaced_of_lineAddress placed, ?_, fun name same => by contradiction⟩
    simp [Listing.symbols, labelled]
  | some name =>
    rw [labelled] at laid
    simp only at laid
    split at laid
    · contradiction
    · rename_i unknown
      obtain ⟨rfl, rfl⟩ := Prod.mk.inj (Except.ok.inj laid)
      refine ⟨isPlaced_of_lineAddress placed, ?_, ?_⟩
      · simp [Listing.symbols, labelled]
      · rintro _ ⟨⟩
        exact Option.not_isSome_iff_eq_none.mp unknown

/-- A line without a label whose mnemonic is known and moves nothing stays where it is. -/
theorem layoutLine_unlabelled {line : SourceLine} {mnemonic : String}
    (named : line.mnemonic = some mnemonic) (unlabelled : line.label = none)
    (stays : isLayout mnemonic = false)
    (known : isDirective mnemonic = true → (elementWidth? mnemonic).isSome = true) :
    layoutLine size [] address line = .ok (address, []) := by
  have same : ¬ (isDirective mnemonic = true ∧ (elementWidth? mnemonic).isNone = true) := by
    rintro ⟨directive, unknown⟩
    have some := known directive
    rw [Option.isNone_iff_eq_none.mp unknown] at some
    contradiction
  have placed : lineAddress size [] address line = .ok address := by
    unfold lineAddress
    simp only [named, stays, Bool.false_eq_true, if_false, if_neg same]
  rw [layoutLine, ok_bind placed, unlabelled]
  rfl

/-- Lines are laid out one behind the other, each with the symbols of those before it. -/
inductive Laid (size : Nat) : SymbolMap → Nat → Listing → Prop
  | nil {known : SymbolMap} {behind : Nat} : Laid size known behind []
  | cons {known symbols : SymbolMap} {behind address : Nat} {line : SourceLine} {rest : Listing}
      (first : layoutLine size known behind line = .ok (address, symbols))
      (later : Laid size symbols (address + lineSize line) rest) :
      Laid size known behind ((line, address) :: rest)

/-- What one line adds to a layout: the placed line, and the symbols and the address behind it. -/
def placeLine (size : Nat) (symbols : SymbolMap) (address : Nat) :
    Except AssemblyError SourceLine → Except Text.BadNumeral (PlacedLine × SymbolMap × Nat)
  | .error error => .ok (⟨.error error, address, some error⟩, symbols, address)
  | .ok line =>
    match layoutLine size symbols address line with
    | .ok (there, symbols) => .ok (⟨.ok line, there, none⟩, symbols, there + lineSize line)
    | .error (.assembly error) =>
      .ok (⟨.ok line, address, some error⟩, symbols, address + lineSize line)
    | .error (.numeral bad) => .error bad

/-- A source is laid out line by line. -/
theorem layout_cons (size : Nat) (symbols : SymbolMap) (address : Nat)
    (first : Except AssemblyError SourceLine) (rest : List (Except AssemblyError SourceLine)) :
    layout size symbols address (first :: rest) =
      match placeLine size symbols address first with
      | .error bad => (.error bad, symbols)
      | .ok (placed, symbols, address) =>
        ((layout size symbols address rest).1.map (placed :: ·),
          (layout size symbols address rest).2) := by
  cases first with
  | error error => rfl
  | ok line =>
    simp only [layout, placeLine]
    rcases layoutLine size symbols address line with (error | bad) | ⟨there, symbols⟩ <;> rfl

/-- A line that is placed without an error was read and laid out. -/
theorem placeLine_clean {parsed : Except AssemblyError SourceLine} {placed : PlacedLine}
    (there : placeLine size known behind parsed = .ok (placed, symbols, address))
    (clean : placed.error = none) :
    ∃ line at', parsed = .ok line ∧ layoutLine size known behind line = .ok (at', symbols) ∧
      placed = place (line, at') ∧ address = at' + lineSize line := by
  cases parsed with
  | error error =>
    obtain ⟨rfl, _⟩ := Prod.mk.inj (Except.ok.inj there)
    contradiction
  | ok line =>
    rw [placeLine] at there
    split at there
    · rename_i laid
      obtain ⟨rfl, same⟩ := Prod.mk.inj (Except.ok.inj there)
      obtain ⟨rfl, rfl⟩ := Prod.mk.inj same
      exact ⟨line, _, rfl, laid, rfl, rfl⟩
    · obtain ⟨rfl, _⟩ := Prod.mk.inj (Except.ok.inj there)
      contradiction
    · contradiction

/-- A source without errors is laid out as its listing. -/
theorem laid_of_layout {parsed : List (Except AssemblyError SourceLine)} {placed : List PlacedLine}
    (laid : layout size known behind parsed = (.ok placed, symbols))
    (clean : ∀ entry ∈ placed, entry.error = none) :
    ∃ listed : Listing, placed = listed.map place ∧ parsed = listed.map (fun entry => .ok entry.1) ∧
      symbols = known ++ listed.symbols ∧ Laid size known behind listed := by
  induction parsed generalizing known behind placed symbols with
  | nil =>
    obtain ⟨same, rfl⟩ := Prod.mk.inj laid
    obtain rfl := Except.ok.inj same
    exact ⟨[], rfl, rfl, (List.append_nil _).symm, .nil⟩
  | cons first rest ih =>
    rw [layout_cons] at laid
    split at laid
    · cases laid
    · rename_i here symbols' address' there
      obtain ⟨same, rfl⟩ := Prod.mk.inj laid
      obtain ⟨others, later, rfl⟩ := map_eq_ok.mp same
      obtain ⟨cleanHere, cleanLater⟩ := List.forall_mem_cons.mp clean
      obtain ⟨line, at', rfl, laidHere, rfl, rfl⟩ := placeLine_clean there cleanHere
      obtain ⟨listed, rfl, rfl, symbolsLater, laidLater⟩ :=
        ih (Prod.ext later rfl) cleanLater
      obtain ⟨_, rfl, _⟩ := layoutLine_eq_ok laidHere
      refine ⟨(line, at') :: listed, rfl, rfl, ?_, .cons laidHere laidLater⟩
      refine symbolsLater.trans ?_
      rw [List.append_assoc, ← symbols_append]
      rfl

/-- A line of a layout is laid out behind the lines before it. -/
theorem Laid.split (laid : Laid size known behind (before ++ (line, address) :: after)) :
    ∃ symbols, layoutLine size (known ++ before.symbols) (endFrom behind before) line =
      .ok (address, symbols) := by
  induction before generalizing known behind with
  | nil =>
    cases laid with
    | cons first later => exact ⟨_, by simpa [Listing.symbols, endFrom] using first⟩
  | cons entry before ih =>
    cases laid with
    | cons first later =>
      obtain ⟨_, rfl, _⟩ := layoutLine_eq_ok first
      obtain ⟨symbols, laid⟩ := ih later
      refine ⟨symbols, ?_⟩
      rw [List.append_assoc, ← symbols_append] at laid
      exact laid

/-- A label has the address of its line. -/
theorem Laid.lookup (laid : Laid size [] behind listed) {name : String}
    (inside : (line, address) ∈ listed) (labelled : line.label = some name) :
    listed.symbols.lookup name = some (address : Int) := by
  obtain ⟨before, after, rfl⟩ := List.append_of_mem inside
  obtain ⟨symbols, there⟩ := laid.split
  obtain ⟨_, _, unknown⟩ := layoutLine_eq_ok there
  have own : Listing.symbols ((line, address) :: after) =
      (name, (address : Int)) :: Listing.symbols after := by
    simp [Listing.symbols, labelled]
  have earlier : (Listing.symbols before).lookup name = none := unknown name labelled
  rw [symbols_append, List.lookup_append, own, earlier, Option.none_or, List.lookup_cons_self]

/-- A line that is not an `.org` that goes back is placed behind the lines before it. -/
theorem IsPlaced.behind_le (placed : IsPlaced known behind line address)
    (forward : line.mnemonic = some ".org" → behind ≤ address) : behind ≤ address := by
  unfold IsPlaced at placed
  split at placed
  · exact forward ‹_›
  · split at placed
    · obtain ⟨_, _, above, _⟩ := placed
      exact above
    · exact Nat.le_of_eq placed.symm

/-- Lines that each come behind those before them are placed behind each other. -/
theorem pairwise_of_endFrom
    (forward : ∀ before line address after, listed = before ++ (line, address) :: after →
      endFrom behind before ≤ address) :
    (∀ entry ∈ listed, behind ≤ entry.2) ∧
      listed.Pairwise fun first second => first.2 + lineSize first.1 ≤ second.2 := by
  induction listed generalizing behind with
  | nil => exact ⟨fun entry inside => by contradiction, .nil⟩
  | cons entry rest ih =>
    obtain ⟨line, address⟩ := entry
    have here : behind ≤ address := forward [] line address rest rfl
    obtain ⟨later, apart⟩ := @ih (address + lineSize line) fun before other there after split =>
      forward ((line, address) :: before) other there after (congrArg _ split)
    refine ⟨?_, .cons later apart⟩
    rintro other inside
    rcases List.mem_cons.mp inside with rfl | inside
    · exact here
    · have beyond := later other inside
      omega

/-- Lines that never go back are placed behind each other. -/
theorem Laid.pairwise (laid : Laid size [] 0 listed) (forward : listed.NeverBack) :
    listed.Pairwise fun first second => first.2 + lineSize first.1 ≤ second.2 := by
  refine (@pairwise_of_endFrom 0 listed ?_).2
  rintro before line address after rfl
  obtain ⟨symbols, there⟩ := laid.split
  exact (layoutLine_eq_ok there).1.behind_le (forward before line address after rfl)

end Assembler

end A64Machine

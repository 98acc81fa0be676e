import Hotswap.Opcode.Lookup
import Mathlib

/-!
# Names of opcodes

No two spellings of opcodes have one normal form (`nodup_spellings`), so a name with the normal form
of a spelling finds the opcode of the spelling (`ofName?_of_mem_spellings`). In particular every
opcode is found under its mnemonic.

Comparing each spelling with every other one takes long to check. Numbers that are computed from the
spellings are compared instead, and by marking those met so far in the bits of a number.
-/

namespace Hotswap.Opcode

/-! ## Numbers apart -/

/-- A number of some characters. -/
def charsKey (cs : List Char) : Nat := cs.foldl (fun n c => n * 256 + c.toNat) 0

/-- Whether no two numbers have one remainder; `seen` marks the remainders met so far. -/
def areApart (modulus : Nat) : (seen : Nat) → List Nat → Bool
  | _, [] => true
  | seen, k :: rest =>
    !seen.testBit (k % modulus) && areApart modulus (seen ||| 2 ^ (k % modulus)) rest

/-- The remainders of numbers that are apart have not been met before. -/
theorem testBit_of_areApart {modulus seen : Nat} {ks : List Nat}
    (h : areApart modulus seen ks = true) : ∀ k ∈ ks, seen.testBit (k % modulus) = false := by
  induction ks generalizing seen with
  | nil => exact fun _ hk => nomatch hk
  | cons k rest ih =>
    rw [areApart, Bool.and_eq_true, Bool.not_eq_true'] at h
    refine List.forall_mem_cons.2 ⟨h.1, fun j hj => ?_⟩
    have hbit := ih h.2 j hj
    rw [Nat.testBit_or, Bool.or_eq_false_iff] at hbit
    exact hbit.1

/-- So no two numbers that are apart are equal. -/
theorem nodup_of_areApart {modulus seen : Nat} {ks : List Nat}
    (h : areApart modulus seen ks = true) : ks.Nodup := by
  induction ks generalizing seen with
  | nil => exact List.nodup_nil
  | cons k rest ih =>
    rw [areApart, Bool.and_eq_true] at h
    refine List.nodup_cons.2 ⟨fun hmem => ?_, ih h.2⟩
    have hbit := testBit_of_areApart h.2 k hmem
    rw [Nat.testBit_or, Nat.testBit_two_pow_self, Bool.or_true] at hbit
    cases hbit

/-! ## Spellings -/

/-- The numbers of the spellings, by code. -/
def spellingKeys : List Nat :=
  all.flatMap fun op => (op.mnemonic :: op.row.aliases).map fun s => charsKey (normalChars s.toList)

/-- The remainders by this number are different, which was found by trying. -/
theorem areApart_spellingKeys : areApart 3683 0 spellingKeys = true := by
  decide +kernel

/-- The list has the numbers of the spellings of the table. -/
theorem map_charsKey_spellingTable :
    spellingTable.map (fun entry => charsKey entry.1.toList) = spellingKeys := by
  simp [spellingTable, spellings, spellingKeys, normalName, List.map_flatMap, Function.comp_def]

/-- **No two spellings have one normal form.** -/
theorem nodup_spellings : (spellingTable.map (·.1)).Nodup := by
  have hkeys : ((spellingTable.map (·.1)).map fun s => charsKey s.toList).Nodup := by
    rw [List.map_map]
    show (spellingTable.map fun entry => charsKey entry.1.toList).Nodup
    rw [map_charsKey_spellingTable]
    exact nodup_of_areApart areApart_spellingKeys
  exact List.Nodup.of_map _ hkeys

/-- A spelling of an opcode is in the table, with that opcode. -/
theorem mem_spellingTable {op : Opcode} {s : String} (h : s ∈ op.spellings) :
    (s, op) ∈ spellingTable := by
  have hop : op ∈ all := List.mem_of_getElem? (all_getElem?_code op)
  exact List.mem_flatMap.2 ⟨op, hop, List.mem_map.2 ⟨s, h, rfl⟩⟩

/-- A name with the normal form of a spelling finds the opcode of the spelling. -/
theorem ofName?_of_mem_spellings {op : Opcode} {name : String}
    (h : normalName name ∈ op.spellings) : ofName? name = some op := by
  have hmem : (normalName name, op) ∈ spellingTable := mem_spellingTable h
  have hsome : (spellingTable.find? fun entry => entry.1 == normalName name).isSome = true :=
    List.find?_isSome.2 ⟨_, hmem, by simp⟩
  obtain ⟨entry, hentry⟩ := Option.isSome_iff_exists.1 hsome
  have hname : entry.1 = normalName name := by
    simpa using List.find?_some hentry
  have hsame : entry = (normalName name, op) :=
    List.inj_on_of_nodup_map nodup_spellings (List.mem_of_find?_eq_some hentry) hmem hname
  unfold ofName?
  rw [hentry, hsame]
  rfl

/-- An opcode is found by its mnemonic. -/
theorem ofName?_mnemonic (op : Opcode) : ofName? op.mnemonic = some op :=
  ofName?_of_mem_spellings (List.mem_map.2 ⟨op.mnemonic, List.mem_cons_self, rfl⟩)

end Hotswap.Opcode

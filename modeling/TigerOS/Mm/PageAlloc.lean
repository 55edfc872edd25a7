import TigerOS.Foundation.Machine
import TigerOS.Foundation.Bitmap

/-! # The page allocator

The allocator hands out the pages of one range of addresses. It keeps a bitmap of
the pages handed out, a count of the free ones and the index at which the next
scan starts. Addresses and sizes are 64-bit words, and a null pointer is address
`0`.
-/

namespace TigerOS.Mm

open Foundation

abbrev pageAllocPageSize : UInt64 := 4096
abbrev pageAllocMaxPages : UInt64 := 131072

/-- The globals of `page_alloc.c`. -/
structure PageAllocator where
  rangeStart : UInt64
  rangeEnd : UInt64
  totalPages : UInt64
  freePages : UInt64
  nextHint : UInt64
  allocBitmap : ℕ → UInt64

/-- `page_align_up`. -/
def pageAlignUp (addr : UInt64) : UInt64 :=
  let mask := pageAllocPageSize - 1
  (addr + mask) &&& ~~~mask

/-- `page_align_down`. -/
def pageAlignDown (addr : UInt64) : UInt64 :=
  let mask := pageAllocPageSize - 1
  addr &&& ~~~mask

section Bitmap

variable (alloc : PageAllocator) (index : UInt64)

/-- `bitmap_test`. -/
def bitmapTest : Prop := alloc.allocBitmap (index / 64).toNat &&& (1 <<< (index % 64)) ≠ 0

instance : Decidable (bitmapTest alloc index) := inferInstanceAs (Decidable (_ ≠ _))

/-- `bitmap_set`. -/
def bitmapSet : PageAllocator :=
  { alloc with
    allocBitmap := Function.update alloc.allocBitmap (index / 64).toNat
      (alloc.allocBitmap (index / 64).toNat ||| (1 <<< (index % 64))) }

/-- `bitmap_clear`. -/
def bitmapClear : PageAllocator :=
  { alloc with
    allocBitmap := Function.update alloc.allocBitmap (index / 64).toNat
      (alloc.allocBitmap (index / 64).toNat &&& ~~~(1 <<< (index % 64))) }

end Bitmap

/-- `page_index_from_addr`. -/
def pageIndexFromAddr (alloc : PageAllocator) (addr : UInt64) : Option UInt64 :=
  if addr < alloc.rangeStart ∨ alloc.rangeEnd ≤ addr then none
  else
    let delta := addr - alloc.rangeStart
    if delta &&& (pageAllocPageSize - 1) ≠ 0 then none
    else
      let index := delta / pageAllocPageSize
      if alloc.totalPages ≤ index then none else some index

/-- `page_alloc_init`. It sets every global, so that the state before it does not
matter. -/
def pageAllocInit (rangeStart rangeEnd : UInt64) : PageAllocator :=
  let alignedStart := pageAlignUp rangeStart
  let alignedEnd := pageAlignDown rangeEnd
  if alignedEnd ≤ alignedStart then ⟨0, 0, 0, 0, 0, fun _ => 0⟩
  else
    let totalPages := (alignedEnd - alignedStart) / pageAllocPageSize
    if pageAllocMaxPages < totalPages then
      ⟨alignedStart, alignedStart + pageAllocMaxPages * pageAllocPageSize, pageAllocMaxPages,
        pageAllocMaxPages, 0, fun _ => 0⟩
    else ⟨alignedStart, alignedEnd, totalPages, totalPages, 0, fun _ => 0⟩

/-- The loop of `page_alloc`, answering the first free index from the hint on,
after the given number of pages was scanned. -/
def scanFrom (alloc : PageAllocator) : ℕ → UInt64 → Option UInt64
  | 0, _ => none
  | rounds + 1, scanned =>
      let index := (alloc.nextHint + scanned) % alloc.totalPages
      if bitmapTest alloc index then scanFrom alloc rounds (scanned + 1) else some index

/-- `page_alloc`. -/
def pageAlloc (alloc : PageAllocator) : UInt64 × PageAllocator :=
  if alloc.freePages = 0 then (0, alloc)
  else
    match scanFrom alloc alloc.totalPages.toNat 0 with
    | none => (0, alloc)
    | some index =>
        (alloc.rangeStart + index * pageAllocPageSize,
          { bitmapSet alloc index with
            freePages := alloc.freePages - 1
            nextHint := (index + 1) % alloc.totalPages })

/-- `page_free`. -/
def pageFree (alloc : PageAllocator) (page : UInt64) : Bool × PageAllocator :=
  if page = 0 then (false, alloc)
  else
    match pageIndexFromAddr alloc page with
    | none => (false, alloc)
    | some index =>
        if ¬ bitmapTest alloc index then (false, alloc)
        else
          let freePages := alloc.freePages + 1
          (true,
            { bitmapClear alloc index with
              freePages := freePages
              nextHint :=
                if index < alloc.nextHint ∨ freePages = 1 then index else alloc.nextHint })

/-! ## The machine of calls -/

inductive PageOp where
  | alloc
  | free (page : UInt64)

/-- What a call answers: an address, or whether a page was freed. -/
inductive PageAnswer where
  | page (address : UInt64)
  | freed (succeeded : Bool)

def pageStep (alloc : PageAllocator) : PageOp → PageAnswer × PageAllocator
  | .alloc => (pageAlloc alloc).map .page id
  | .free page => (pageFree alloc page).map .freed id

/-- The allocator as a machine answering calls. -/
def pageAllocator : Machine PageAllocator PageOp PageAnswer := ⟨pageStep⟩

end TigerOS.Mm

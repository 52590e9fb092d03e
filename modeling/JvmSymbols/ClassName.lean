/-! The two spellings of a class name: the binary name separates packages by dots, the internal name
by slashes. A dollar sign between nested classes stands in both. -/
namespace JvmSymbols
namespace ClassName

def toInternal (name : String) : String := name.map (fun c => if c = '.' then '/' else c)

def toBinary (name : String) : String := name.map (fun c => if c = '/' then '.' else c)

theorem toInternal_append (s t : String) : toInternal (s ++ t) = toInternal s ++ toInternal t := by
  simp [toInternal, ← String.toList_inj]

theorem toBinary_append (s t : String) : toBinary (s ++ t) = toBinary s ++ toBinary t := by
  simp [toBinary, ← String.toList_inj]

theorem toBinary_toInternal (s : String) : toBinary (toInternal s) = toBinary s := by
  rw [← String.toList_inj]
  simp only [toBinary, toInternal, String.toList_map, List.map_map]
  refine List.map_congr_left fun c _ => ?_
  by_cases h : c = '.' <;> simp [h]

theorem toInternal_toBinary (s : String) : toInternal (toBinary s) = toInternal s := by
  rw [← String.toList_inj]
  simp only [toBinary, toInternal, String.toList_map, List.map_map]
  refine List.map_congr_left fun c _ => ?_
  by_cases h : c = '/' <;> simp [h]

end ClassName
end JvmSymbols

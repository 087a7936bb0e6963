/-! The source of the shim that picks an image when it is deployed. -/
namespace ImageLinker.Yul

/-- Its two literals are patched after compilation: `0x33` stands for the length of the compiled
shim and `0xffee` for the length of one image. -/
def conditionalInitcode : String := String.intercalate "\n" [
  "// Deploy-time selector between the PUSH0 and the legacy runtime image.",
  "//",
  "// The deployed bytes of this object are used as the head of the final initcode,",
  "// followed by the PUSH0 image and then the legacy image, both of equal length.",
  "// Two literals are patched after compilation:",
  "//   0x33   -> byte length of the compiled head (offset of the PUSH0 image)",
  "//   0xffee -> byte length of one runtime image",
  "object \"ConditionalInitcode\" \x7b",
  "    code \x7b",
  "        datacopy(0, dataoffset(\"runtime\"), datasize(\"runtime\"))",
  "        return(0, datasize(\"runtime\"))",
  "    \x7d",
  "    object \"runtime\" \x7b",
  "        code \x7b",
  "            let n := 0xffee",
  "            let o := 0x33",
  "            // PUSH0 PUSH0 RETURN: creation only succeeds where PUSH0 exists.",
  "            mstore(0x00, 0x5f5ff3)",
  "            if iszero(create(0, 0x1d, 0x03)) \x7b",
  "                o := sub(codesize(), n)",
  "            \x7d",
  "            codecopy(0x00, o, n)",
  "            return(0x00, n)",
  "        \x7d",
  "    \x7d",
  "\x7d",
  ""]

end ImageLinker.Yul

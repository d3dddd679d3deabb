/-!
# Errors of the `wasi-cuda` ABI

`AbiError` of `tensor-wasm-wasi-gpu`, as far as the registries and the parsers of arguments return it.
-/

namespace TensorWasm.WasiGpu

inductive AbiError
  | invalidPointer
  | quotaExceeded
  | invalidArgs
  | kernelArgsUnsupported
  | invalidHandle

end TensorWasm.WasiGpu

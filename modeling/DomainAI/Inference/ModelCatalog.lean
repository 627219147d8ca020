import DomainAI.Data.Text

/-!
# ModelCatalog
-/

namespace DomainAI

/-- A downloadable on-device model with ordered, verified mirror URLs. -/
structure ModelSpec where
  displayName : Text
  fileName : Text
  sizeBytes : Nat
  urls : List Text
  deriving DecidableEq, Repr

namespace ModelCatalog

def allowedHosts : List Text := ["huggingface.co".toList]

def models : List ModelSpec :=
  [{ displayName := "Gemma 3 1B Instruct (Q4_K_M)".toList
     fileName := "gemma-3-1b-it-Q4_K_M.gguf".toList
     sizeBytes := 810000000
     urls :=
       ["https://huggingface.co/ggml-org/gemma-3-1b-it-GGUF/resolve/main/gemma-3-1b-it-Q4_K_M.gguf".toList,
        "https://huggingface.co/unsloth/gemma-3-1b-it-GGUF/resolve/main/gemma-3-1b-it-Q4_K_M.gguf".toList,
        "https://huggingface.co/lmstudio-community/gemma-3-1b-it-GGUF/resolve/main/gemma-3-1b-it-Q4_K_M.gguf".toList,
        "https://huggingface.co/bartowski/google_gemma-3-1b-it-GGUF/resolve/main/google_gemma-3-1b-it-Q4_K_M.gguf".toList] },
   { displayName := "DeepSeek-R1 Distill Qwen 1.5B (Q4_K_M)".toList
     fileName := "DeepSeek-R1-Distill-Qwen-1.5B-Q4_K_M.gguf".toList
     sizeBytes := 1120000000
     urls :=
       ["https://huggingface.co/unsloth/DeepSeek-R1-Distill-Qwen-1.5B-GGUF/resolve/main/DeepSeek-R1-Distill-Qwen-1.5B-Q4_K_M.gguf".toList,
        "https://huggingface.co/bartowski/DeepSeek-R1-Distill-Qwen-1.5B-GGUF/resolve/main/DeepSeek-R1-Distill-Qwen-1.5B-Q4_K_M.gguf".toList,
        "https://huggingface.co/lmstudio-community/DeepSeek-R1-Distill-Qwen-1.5B-GGUF/resolve/main/DeepSeek-R1-Distill-Qwen-1.5B-Q4_K_M.gguf".toList] },
   { displayName := "Gemma 2 2B Instruct (Q4_K_M)".toList
     fileName := "gemma-2-2b-it-Q4_K_M.gguf".toList
     sizeBytes := 1710000000
     urls :=
       ["https://huggingface.co/bartowski/gemma-2-2b-it-GGUF/resolve/main/gemma-2-2b-it-Q4_K_M.gguf".toList,
        "https://huggingface.co/lmstudio-community/gemma-2-2b-it-GGUF/resolve/main/gemma-2-2b-it-Q4_K_M.gguf".toList,
        "https://huggingface.co/second-state/gemma-2-2b-it-GGUF/resolve/main/gemma-2-2b-it-Q4_K_M.gguf".toList,
        "https://huggingface.co/QuantFactory/gemma-2-2b-it-GGUF/resolve/main/gemma-2-2b-it.Q4_K_M.gguf".toList,
        "https://huggingface.co/MaziyarPanahi/gemma-2-2b-it-GGUF/resolve/main/gemma-2-2b-it.Q4_K_M.gguf".toList] },
   { displayName := "Gemma 3 4B Instruct (Q4_K_M)".toList
     fileName := "gemma-3-4b-it-Q4_K_M.gguf".toList
     sizeBytes := 2490000000
     urls :=
       ["https://huggingface.co/ggml-org/gemma-3-4b-it-GGUF/resolve/main/gemma-3-4b-it-Q4_K_M.gguf".toList,
        "https://huggingface.co/unsloth/gemma-3-4b-it-GGUF/resolve/main/gemma-3-4b-it-Q4_K_M.gguf".toList,
        "https://huggingface.co/lmstudio-community/gemma-3-4b-it-GGUF/resolve/main/gemma-3-4b-it-Q4_K_M.gguf".toList,
        "https://huggingface.co/bartowski/google_gemma-3-4b-it-GGUF/resolve/main/google_gemma-3-4b-it-Q4_K_M.gguf".toList] }]

/-- `models.firstOrNull { it.fileName == fileName }`. -/
def find (fileName : Text) : Option ModelSpec :=
  models.find? fun spec => spec.fileName = fileName

end ModelCatalog
end DomainAI

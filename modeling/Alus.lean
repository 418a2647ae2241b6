import Alus.Lib.Run
import Alus.Util.TileQueue
import Alus.Backgeocoding.BurstOffset
import Alus.Backgeocoding.SlavePixPos
import Alus.Coherence.CohTilesGenerator
import Alus.PalsarFocus.StripedWriter
import Alus.Coherence.TileCover
import Alus.Coherence.WindowedSums
import Alus.TopsarSplit.Split
import Alus.Lib.Numerals
import Alus.Lib.Rounding
import Alus.Lib.Interpolation
import Alus.Lib.Tiling
import Alus.ThermalNoise.NoiseLut
import Alus.ThermalNoise.NoiseLoops
import Alus.TopsarDeburst.Deburst
import Alus.TopsarDeburst.DeburstTiles
import Alus.ThermalNoise.NoiseTiles
import Alus.CoherenceRoutine.SplitApplyOrbit
import Alus.CoherenceRoutine.Timeline
import Alus.Lib.Sampling
import Alus.SnapEngine.BilinearInterpolation
import Alus.Backgeocoding.SlaveRectangle
import Alus.TerrainCorrection.SourceRectangle
import Alus.Dem.ElevationLookup
import Alus.Lib.Cells
import Alus.SnapEngine.TiePointGrid
import Alus.Etad.Text
import Alus.Etad.EtadProduct
import Alus.Lib.Search
import Alus.Etad.Preparation
import Alus.Etad.SampleGrid
import Alus.Lib.PixelPolynomial
import Alus.S1tbx.DopplerParameters
import Alus.TopsarSplit.DopplerRows
import Alus.PalsarFocus.ImgOutput
import Alus.Lib.Bisection
import Alus.Lib.Kernel
import Alus.Lib.Loop
import Alus.PalsarFocus.DcBias
import Alus.PalsarFocus.DevicePaddedImage
import Alus.PalsarFocus.ProcessingVelocity
import Alus.PalsarFocus.TotalIntensity
import Alus.S1tbx.DopplerFrequency
import Alus.S1tbx.OrbitStateVectors
import Alus.S1tbx.ZeroDopplerLines
import Alus.S1tbx.ZeroDopplerOrbit
import Alus.TerrainCorrection.GroundRange
import Alus.TerrainCorrection.RangeIndexGrd
import Alus.TopsarMerge.Merge
import Alus.TopsarMerge.MergeTiles
import Alus.Lib.Splits
import Alus.Lib.LeastSquares
import Alus.Lib.Lagrange
import Alus.Lib.Triangle
import Alus.Backgeocoding.OffsetAlternatives
import Alus.Backgeocoding.BackgeocodingController
import Alus.Util.ShapesUtil
import Alus.Util.TileLists
import Alus.Util.CudaMemArena
import Alus.Util.GdalUtil
import Alus.Util.MathUtils
import Alus.TopsarDeburst.RectanglesGenerator
import Alus.TopsarDeburst.RowCopy
import Alus.Etad.GridSampling
import Alus.Etad.TroposphericGradient
import Alus.Calibrate.CalibrationFactor
import Alus.S1tbx.OrbitInterpolation
import Alus.SnapEngine.TriangularInterpolation
import Alus.SnapEngine.TriangulatedGrid
import Alus.Lib.GridRange
import Alus.ThermalNoise.NoiseKernels
import Alus.ThermalNoise.SlcNoiseLut
import Alus.TopsarMerge.SourceTiles
import Alus.Lib.Mirror
import Alus.FeatureExtractionGabor.PatchAssembly
import Alus.FeatureExtractionGabor.PatchedImage
import Alus.Lib.Reduction
import Alus.FeatureExtractionGabor.PatchFeatures
import Alus.Lib.AreaAverage
import Alus.Resample.RowResample
import Alus.Lib.Strides
import Alus.Resample.TylerTheCreator
import Alus.Lib.IntervalSearch
import Alus.S1tbx.DcInterpolation
import Alus.S1tbx.GeolocationGrid
import Alus.S1tbx.ValidArea
import Alus.S1tbx.GeolocationGridFill
import Alus.SnapEngine.WarpPoints
import Alus.SnapEngine.Approximator
import Alus.SnapEngine.LongitudeNormalization
import Alus.S1tbx.AnnotationGrids
import Alus.SnapEngine.TiePointRaster
import Alus.Coherence.BurstCentre
import Alus.Lib.BivariatePolynomial
import Alus.Lib.ColumnMajor
import Alus.Coherence.DistributePoints
import Alus.Coherence.FlatEarthPhase
import Alus.S1tbx.DateUtils
import Alus.Coherence.OrbitTimes
import Alus.Lib.PolynomialFit
import Alus.S1tbx.PodOrbitData
import Alus.SnapEngine.UtcElements
import Alus.SnapEngine.OrbitMetadata
import Alus.ApplyOrbitFileOp.OrbitStateVectors
import Alus.S1tbx.PodOrbitFile
import Alus.ApplyOrbitFileOp.UpdateOrbits
import Alus.Lib.CubicWindow
import Alus.Dem.EarthGravitationalModel96
import Alus.PalsarFocus.RangeDoppler
import Alus.SnapEngine.ProductSubset
import Alus.TopsarMerge.TargetSize
import Alus.TopsarDeburst.CalibrationVectors
import Alus.Lib.NumberedLists
import Alus.SnapEngine.UtcTimes
import Alus.SnapEngine.UtcParse
import Alus.Lib.OrderedMap
import Alus.Lib.Binary64
import Alus.PalsarFocus.FftPadding
import Alus.PalsarFocus.PalsarRecord
import Alus.Lib.Atomics
import Alus.PalsarFocus.DcBiasMean
import Alus.PalsarFocus.DopplerCentroid
import Alus.Lib.StdSort
import Alus.Util.DelaunayTriangulator
import Alus.Lib.PowerSums
import Alus.Coherence.Solve33
import Alus.Coherence.OrbitNewton
import Alus.Backgeocoding.DerampDemod
import Alus.SnapEngine.PugixmlMetaDataReader
import Alus.Lib.NumGet
import Alus.S1tbx.CalibrationParsing
import Alus.Lib.Stream
import Alus.Lib.InPlace
import Alus.Util.StreamWorkers
import Alus.Util.ImageWorkers
import Alus.Util.RasterArea
import Alus.Util.InPlaceTiles
import Alus.Calibrate.CalibrateTiles
import Alus.ThermalNoise.ThermalNoiseRemover
import Alus.Util.DeviceBuffer
import Alus.Coherence.CudaAlgorithmRunner
import Alus.Util.DrainingWorkers
import Alus.Backgeocoding.EtadCorrection
import Alus.Backgeocoding.BackgeocodingWorkers
import Alus.Lib.Text
import Alus.SnapEngine.ProductDataText
import Alus.SnapEngine.PugixmlMetaDataWriter
import Alus.Lib.GridPixels
import Alus.TerrainCorrection.SourceRectangleKernel
import Alus.TerrainCorrection.TerrainCorrectionTiles
import Alus.Coherence.CoherenceComputation
import Alus.Coherence.BandCoherence
